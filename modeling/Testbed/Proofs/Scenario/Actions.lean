/-
The actions of a document, and the document as a whole.

What an operation needs in order to get its action is `Configured`: a payload whose
tokens resolve and whose handles the scenario owns.  `buildAction` says nothing else,
except that a scenario that comes with the payload has to have been built.  The action
is of the kind of the payload, and its numbers are the positions of the handles.
-/
import Testbed.Proofs.Scenario.Building

namespace Testbed

open Outcome

/-- The tokens of a payload, those of conditions included. -/
def Payload.tokens {σ : Type} : Payload σ → List Token
  | startJob launch => launch.arguments.map Prod.snd ++ [launch.entity]
  | startScenario launch => launch.arguments.map Prod.snd
  | reboot entity => [entity]
  | branch condition => condition.tokens
  | loop condition => condition.tokens
  | stopJob _ | stopJobs _ | stopScenario _ => []

namespace Scenario

/-! ### Tokens -/

/-- A token refers to names that the scenario declares. -/
abbrev Resolves (s : Scenario) (t : Token) : Prop :=
  t.Resolvable (s.arguments.map Prod.fst) (Keyed.keys s.constants)

/-- The table of constants has the names that were declared. -/
theorem resolvable_declarations_iff (s : Scenario) (t : Token) :
    t.Resolvable s.declarations.arguments (Keyed.keys s.declarations.constants)
      ↔ s.Resolves t := by
  have hnames := Keyed.mem_keys_ofList s.constants
  refine ⟨fun h => ?_, fun h => ?_⟩
  · exact h.mono fun name hname => (hnames name).mp hname
  · exact h.mono fun name hname => (hnames name).mpr hname

theorem resolveToken_eq_ok {d : Declarations} {position : Nat} {t : Token} {v : Json} :
    resolveToken d position t = .ok v ↔ t.resolve d = .ok v := by
  unfold resolveToken
  cases t.resolve d <;> simp

theorem buildCondition_eq_ok {d : Declarations} {position : Nat} {c : Condition} {v : Json} :
    buildCondition d position c = .ok v ↔ c.build d = .ok v := by
  unfold buildCondition
  cases c.build d <;> simp

theorem resolveEntries_eq_ok {d : Declarations} {position : Nat} : ∀ {entries : NamedTokens}
    {members : Members}, resolveEntries d position entries = .ok members
      ↔ Token.resolveEntries d entries = .ok members := by
  intro entries
  induction entries with
  | nil =>
      intro members
      rw [resolveEntries, Token.resolveEntries, pure_eq_ok, Except.ok.injEq]
  | cons entry rest ih =>
      intro members
      obtain ⟨name, t⟩ := entry
      rw [resolveEntries, Token.resolveEntries]
      simp only [bind_eq_ok, pure_eq_ok, resolveToken_eq_ok, ih]

/-- Named tokens resolve as a map of them does. -/
theorem resolveNamed_eq_ok {d : Declarations} {position : Nat} {entries : NamedTokens}
    {members : Members} : resolveNamed d position entries = .ok members
      ↔ (Token.map entries).resolve d = .ok (.object members) := by
  rw [resolveNamed, Token.resolve, bind_eq_ok, bind_eq_ok]
  simp only [resolveEntries_eq_ok, pure_eq_ok, Json.object.injEq]

theorem succeeds_resolveToken (s : Scenario) (position : Nat) (t : Token) :
    Succeeds (resolveToken s.declarations position t) ↔ s.Resolves t := by
  rw [← resolvable_declarations_iff, ← Token.succeeds_resolve]
  exact exists_congr fun value => resolveToken_eq_ok

/-- Named tokens give an object exactly if each of them resolves. -/
theorem succeeds_resolveNamed_iff {d : Declarations} {position : Nat} {entries : NamedTokens} :
    Succeeds (resolveNamed d position entries)
      ↔ ∀ entry ∈ entries, entry.2.Resolvable d.arguments (Keyed.keys d.constants) := by
  rw [resolveNamed, succeeds_bind_pure, ← Token.succeeds_resolveEntries]
  exact exists_congr fun members => resolveEntries_eq_ok

theorem succeeds_resolveNamed (s : Scenario) (position : Nat) (entries : NamedTokens) :
    Succeeds (resolveNamed s.declarations position entries)
      ↔ ∀ t ∈ entries.map Prod.snd, s.Resolves t := by
  simp only [succeeds_resolveNamed_iff, resolvable_declarations_iff, List.forall_mem_map]

theorem succeeds_buildCondition (s : Scenario) (position : Nat) (c : Condition) :
    Succeeds (buildCondition s.declarations position c) ↔ ∀ t ∈ c.tokens, s.Resolves t := by
  simp only [← resolvable_declarations_iff]
  rw [← Condition.succeeds_build]
  exact exists_congr fun value => buildCondition_eq_ok

theorem succeeds_buildJob (s : Scenario) (position : Nat) (launch : JobLaunch) :
    Succeeds (buildJob s.declarations position launch) ↔ launch.job ∉ Document.jobKeys
      ∧ (∀ t ∈ launch.arguments.map Prod.snd, s.Resolves t) ∧ s.Resolves launch.entity := by
  unfold buildJob
  by_cases hname : launch.job ∈ Document.jobKeys
  · rw [if_pos (by simpa using hname)]
    exact iff_of_false (not_succeeds_error _) fun h => h.1 hname
  · rw [if_neg (by simpa using hname), ← succeeds_resolveNamed s position,
      ← succeeds_resolveToken s position]
    refine Iff.trans (succeeds_bind_and fun arguments _ => succeeds_bind_pure) ?_
    exact ⟨fun h => ⟨hname, h⟩, fun h => h.2⟩

/-! ### Targets and bodies -/

/-- What a stop operation points at is an operation of the kind that it stops. -/
theorem resolveTarget_eq_ok {s : Scenario} {position : Nat} {kind expected : Kind}
    (hkind : kind.stopTarget? = some expected) {target : Handle} {found : Nat} :
    s.resolveTarget position kind target = .ok found ↔ (s.owns target = true
      ∧ ∃ op, s.operations[target.index]? = some op ∧ kind.stopTarget? = some op.kind)
        ∧ target.index = found := by
  unfold resolveTarget
  simp only [bind_eq_ok, resolve_eq_ok, operation_eq_ok, hkind, Option.some.injEq]
  refine ⟨?_, ?_⟩
  · intro h
    obtain ⟨_, ⟨howns, rfl⟩, op, ⟨-, hop⟩, h⟩ := h
    split at h
    · rename_i hexpected
      exact ⟨⟨howns, op, hop, hexpected⟩, pure_eq_ok.mp h⟩
    · cases h
  · intro h
    obtain ⟨⟨howns, op, hop, hexpected⟩, rfl⟩ := h
    refine ⟨_, ⟨howns, rfl⟩, op, ⟨howns, hop⟩, ?_⟩
    rw [if_pos hexpected]
    rfl

/-- A target that is not owned is refused. -/
theorem resolveTarget_of_foreign {s : Scenario} (position : Nat) (kind : Kind) {target : Handle}
    (hforeign : s.owns target = false) : s.resolveTarget position kind target
      = .error (.foreignOperation s.name target.index) := by
  unfold resolveTarget resolve
  rw [hforeign]
  rfl

/-- A target that is owned is judged by its kind alone. -/
theorem resolveTarget_of_owned {s : Scenario} (position : Nat) (kind : Kind) {target : Handle}
    {op : Operation Scenario} (howns : s.owns target = true)
    (hop : s.operations[target.index]? = some op) : s.resolveTarget position kind target
      = match kind.stopTarget? with
        | some expected =>
          if expected = op.kind then .ok target.index
          else .error (.invalidTarget position target.index expected op.kind)
        | none => .ok target.index := by
  unfold resolveTarget
  rw [resolve_eq_ok.mpr ⟨howns, rfl⟩, operation_eq_ok.mpr ⟨howns, hop⟩]
  rfl

theorem succeeds_resolveTarget {s : Scenario} {position : Nat} {kind expected : Kind}
    (hkind : kind.stopTarget? = some expected) (target : Handle) :
    Succeeds (s.resolveTarget position kind target) ↔ s.owns target = true
      ∧ ∃ op, s.operations[target.index]? = some op ∧ kind.stopTarget? = some op.kind := by
  simp only [Succeeds, resolveTarget_eq_ok hkind, exists_and_left, exists_eq', and_true]

theorem succeeds_resolveAll (s : Scenario) (handles : List Handle) :
    Succeeds (s.resolveAll handles) ↔ ∀ h ∈ handles, s.owns h = true := by
  simp only [Succeeds, resolveAll_eq_ok, exists_and_left, exists_eq', and_true]

/-! ### Actions -/

/-- What an operation with a payload needs in order to get its action. -/
@[mk_iff]
structure Configured (s : Scenario) (op : Operation Scenario) (p : Payload Scenario) : Prop where
  jobName : ∀ launch, p = .startJob launch → launch.job ∉ Document.jobKeys
  tokens : ∀ t ∈ p.tokens, s.Resolves t
  /-- What is stopped is in the scenario, and of the kind that the operation stops. -/
  targets : ∀ h ∈ p.targets, s.owns h = true
    ∧ ∃ target, s.operations[h.index]? = some target ∧ op.kind.stopTarget? = some target.kind
  bodies : op.kind = .branch ∨ op.kind = .loop →
    ∀ h ∈ op.firstBody ++ op.secondBody, s.owns h = true

theorem succeeds_buildSubScenario (position : Nat) (name : String) (built : Option Built) :
    Succeeds (buildSubScenario position name built) ↔ ∀ result, built = some result →
      Succeeds result := by
  match built with
  | none => exact iff_of_true (succeeds_ok _) (by simp)
  | some (.ok document) => exact iff_of_true (succeeds_ok _) (by simp [succeeds_ok])
  | some (.error source) =>
      exact iff_of_false (not_succeeds_error _) (by simp [not_succeeds_error])

/-- **An operation gets its action exactly if it is configured and the scenario that it carries,
if any, was built.** -/
theorem succeeds_buildAction {s : Scenario} {op : Operation Scenario} {p : Payload Scenario}
    (hp : op.payload = some p) (hkind : p.kind = op.kind) (position : Nat) :
    Succeeds (s.buildAction s.declarations position op (op.embedded?.map build))
      ↔ s.Configured op p ∧ ∀ sub, op.embedded? = some sub → Succeeds sub.build := by
  unfold buildAction Operation.embedded?
  rw [hp, Option.bind_some, configured_iff, ← hkind]
  cases p with
  | startJob launch =>
      rw [succeeds_bind_pure, succeeds_buildJob]
      simp [Payload.kind, Payload.tokens, Payload.targets, Payload.embedded?, or_imp, forall_and]
  | stopJob target =>
      rw [succeeds_bind_pure, succeeds_resolveTarget rfl]
      simp [Payload.kind, Payload.tokens, Payload.targets, Payload.embedded?]
  | stopJobs targets =>
      have htarget : ∀ target, Succeeds (s.resolveTarget position .stopJobs target) ↔ _ :=
        succeeds_resolveTarget rfl
      rw [succeeds_bind_pure, succeeds_mapM]
      simp [Payload.kind, Payload.tokens, Payload.targets, Payload.embedded?, htarget]
  | startScenario launch =>
      refine Iff.trans (succeeds_bind_and fun scenario _ => succeeds_bind_pure) ?_
      rw [succeeds_buildSubScenario, succeeds_resolveNamed]
      simp [Payload.kind, Payload.tokens, Payload.targets, and_comm]
  | stopScenario target =>
      rw [succeeds_bind_pure, succeeds_resolveTarget rfl]
      simp [Payload.kind, Payload.tokens, Payload.targets, Payload.embedded?]
  | reboot entity =>
      rw [succeeds_bind_pure, succeeds_resolveToken]
      simp [Payload.kind, Payload.tokens, Payload.targets, Payload.embedded?]
  | branch condition =>
      refine Iff.trans (succeeds_bind_and fun value _ =>
        succeeds_bind_and fun whenTrue _ => succeeds_bind_pure) ?_
      rw [succeeds_buildCondition, succeeds_resolveAll, succeeds_resolveAll]
      simp [Payload.kind, Payload.tokens, Payload.targets, Payload.embedded?, or_imp, forall_and]
  | loop condition =>
      refine Iff.trans (succeeds_bind_and fun value _ =>
        succeeds_bind_and fun eachRound _ => succeeds_bind_pure) ?_
      rw [succeeds_buildCondition, succeeds_resolveAll, succeeds_resolveAll]
      simp [Payload.kind, Payload.tokens, Payload.targets, Payload.embedded?, or_imp, forall_and]

/-! ### What is in an action -/

theorem resolveTarget_index {s : Scenario} {position : Nat} {kind : Kind} {target : Handle}
    {found : Nat} (h : s.resolveTarget position kind target = .ok found) :
    target.index = found := by
  unfold resolveTarget at h
  obtain ⟨position, hposition, h⟩ := bind_eq_ok.mp h
  obtain ⟨-, rfl⟩ := resolve_eq_ok.mp hposition
  obtain ⟨op, -, h⟩ := bind_eq_ok.mp h
  dsimp only at h
  split at h
  · split at h
    · exact pure_eq_ok.mp h
    · cases h
  · exact pure_eq_ok.mp h

theorem resolveTargets_index {s : Scenario} {position : Nat} {kind : Kind}
    {targets : List Handle} {found : List Nat}
    (h : targets.mapM (s.resolveTarget position kind) = .ok found) :
    targets.map Handle.index = found := by
  have hall : List.Forall₂ (fun target position => target.index = position) targets found :=
    (mapM_eq_ok.mp h).imp fun _ _ => resolveTarget_index
  rwa [← List.forall₂_eq_eq_eq, List.forall₂_map_left_iff]

/-- What the operation at a position is built to: one case for each kind of payload, with the
parts that the action is put together from. -/
inductive Enacts (s : Scenario) (d : Declarations) (position : Nat) (op : Operation Scenario)
    (built : Option Built) : Payload Scenario → Document.Action → Prop
  | startJob {launch : JobLaunch} {job : Document.Job}
      (job_built : buildJob d position launch = .ok job) :
      Enacts s d position op built (.startJob launch) (.startJob job)
  | stopJob {target : Handle} {found : Nat}
      (target_found : s.resolveTarget position op.kind target = .ok found) :
      Enacts s d position op built (.stopJob target) (.stopJob found)
  | stopJobs {targets : List Handle} {found : List Nat}
      (targets_found : targets.mapM (s.resolveTarget position op.kind) = .ok found) :
      Enacts s d position op built (.stopJobs targets) (.stopJobs found)
  | startScenario {launch : ScenarioLaunch Scenario} {scenario : Json} {arguments : Members}
      (scenario_built : buildSubScenario position launch.scenario.name built = .ok scenario)
      (arguments_resolved : resolveNamed d position launch.arguments = .ok arguments) :
      Enacts s d position op built (.startScenario launch) (.startScenario scenario arguments)
  | stopScenario {target : Handle} {found : Nat}
      (target_found : s.resolveTarget position op.kind target = .ok found) :
      Enacts s d position op built (.stopScenario target) (.stopScenario found)
  | reboot {entity : Token} {value : Json}
      (entity_resolved : resolveToken d position entity = .ok value) :
      Enacts s d position op built (.reboot entity) (.reboot value)
  | branch {condition : Condition} {value : Json} {whenTrue whenFalse : List Nat}
      (condition_built : buildCondition d position condition = .ok value)
      (first_found : s.resolveAll op.firstBody = .ok whenTrue)
      (second_found : s.resolveAll op.secondBody = .ok whenFalse) :
      Enacts s d position op built (.branch condition) (.branch value whenTrue whenFalse)
  | loop {condition : Condition} {value : Json} {eachRound atEnd : List Nat}
      (condition_built : buildCondition d position condition = .ok value)
      (first_found : s.resolveAll op.firstBody = .ok eachRound)
      (second_found : s.resolveAll op.secondBody = .ok atEnd) :
      Enacts s d position op built (.loop condition) (.loop value eachRound atEnd)

section Enacts

variable {s : Scenario} {d : Declarations} {position : Nat} {op : Operation Scenario}
  {built : Option Built} {action : Document.Action}

/-- **An operation that gets an action has a payload, and the action carries it out.** -/
theorem enacts_of_buildAction (h : s.buildAction d position op built = .ok action) :
    ∃ p, op.payload = some p ∧ s.Enacts d position op built p action := by
  unfold buildAction at h
  cases hp : op.payload with
  | none =>
      rw [hp] at h
      cases h
  | some p =>
      rw [hp] at h
      refine ⟨p, rfl, ?_⟩
      cases p with
      | startJob launch =>
          obtain ⟨job, hjob, h⟩ := bind_eq_ok.mp h
          cases pure_eq_ok.mp h
          exact .startJob hjob
      | stopJob target =>
          obtain ⟨found, hfound, h⟩ := bind_eq_ok.mp h
          cases pure_eq_ok.mp h
          exact .stopJob hfound
      | stopJobs targets =>
          obtain ⟨found, hfound, h⟩ := bind_eq_ok.mp h
          cases pure_eq_ok.mp h
          exact .stopJobs hfound
      | startScenario launch =>
          obtain ⟨scenario, hscenario, h⟩ := bind_eq_ok.mp h
          obtain ⟨arguments, harguments, h⟩ := bind_eq_ok.mp h
          cases pure_eq_ok.mp h
          exact .startScenario hscenario harguments
      | stopScenario target =>
          obtain ⟨found, hfound, h⟩ := bind_eq_ok.mp h
          cases pure_eq_ok.mp h
          exact .stopScenario hfound
      | reboot entity =>
          obtain ⟨value, hvalue, h⟩ := bind_eq_ok.mp h
          cases pure_eq_ok.mp h
          exact .reboot hvalue
      | branch condition =>
          obtain ⟨value, hvalue, h⟩ := bind_eq_ok.mp h
          obtain ⟨whenTrue, hwhenTrue, h⟩ := bind_eq_ok.mp h
          obtain ⟨whenFalse, hwhenFalse, h⟩ := bind_eq_ok.mp h
          cases pure_eq_ok.mp h
          exact .branch hvalue hwhenTrue hwhenFalse
      | loop condition =>
          obtain ⟨value, hvalue, h⟩ := bind_eq_ok.mp h
          obtain ⟨eachRound, heachRound, h⟩ := bind_eq_ok.mp h
          obtain ⟨atEnd, hatEnd, h⟩ := bind_eq_ok.mp h
          cases pure_eq_ok.mp h
          exact .loop hvalue heachRound hatEnd

/-- An action is of the kind of the payload, and has the positions of its handles. -/
theorem Enacts.parts {p : Payload Scenario} (h : s.Enacts d position op built p action) :
    action.kind = p.kind ∧ action.targets = p.targets.map Handle.index
      ∧ action.bodies? = if p.kind = .branch ∨ p.kind = .loop
        then some (op.firstBody.map Handle.index, op.secondBody.map Handle.index) else none := by
  cases h with
  | startJob hjob => exact ⟨rfl, rfl, rfl⟩
  | startScenario hscenario harguments => exact ⟨rfl, rfl, rfl⟩
  | reboot hentity => exact ⟨rfl, rfl, rfl⟩
  | stopJob hfound | stopScenario hfound =>
      cases resolveTarget_index hfound
      exact ⟨rfl, rfl, rfl⟩
  | stopJobs hfound =>
      cases resolveTargets_index hfound
      exact ⟨rfl, rfl, rfl⟩
  | branch hcondition hfirst hsecond | loop hcondition hfirst hsecond =>
      cases (resolveAll_eq_ok.mp hfirst).2
      cases (resolveAll_eq_ok.mp hsecond).2
      exact ⟨rfl, rfl, rfl⟩

end Enacts

/-! ### Functions -/

section Functions

variable {s : Scenario} {d : Declarations} (wait : Operation Scenario → Document.Wait)
  (built : Operation Scenario → Option Built)

/-- There is a function for each operation, with its position as number. -/
theorem buildFunctions_eq_ok : ∀ {operations : List (Operation Scenario)} {position : Nat}
    {functions : List Document.Function},
    s.buildFunctions d position operations (operations.map wait) (operations.map built)
      = .ok functions →
    functions.length = operations.length ∧ ∀ i op, operations[i]? = some op →
      ∃ action, s.buildAction d (position + i) op (built op) = .ok action
        ∧ functions[i]? = some ⟨position + i, labelOf op (position + i), action, wait op⟩ := by
  intro operations
  induction operations with
  | nil =>
      intro position functions h
      cases pure_eq_ok.mp h
      exact ⟨rfl, fun i op hop => by simp at hop⟩
  | cons op rest ih =>
      intro position functions h
      simp only [List.map_cons, buildFunctions, bind_eq_ok, pure_eq_ok] at h
      obtain ⟨action, haction, others, hothers, rfl⟩ := h
      obtain ⟨hlength, hall⟩ := ih hothers
      refine ⟨congrArg Nat.succ hlength, fun i op' hop' => ?_⟩
      cases i with
      | zero =>
          cases hop'
          exact ⟨action, haction, rfl⟩
      | succ i =>
          have h := hall i op' hop'
          rwa [Nat.add_right_comm] at h

theorem succeeds_buildFunctions : ∀ (operations : List (Operation Scenario)) (position : Nat),
    Succeeds (s.buildFunctions d position operations (operations.map wait) (operations.map built))
      ↔ ∀ i op, operations[i]? = some op →
        Succeeds (s.buildAction d (position + i) op (built op)) := by
  intro operations
  induction operations with
  | nil => intro position; exact iff_of_true (succeeds_pure []) fun i op hop => by simp at hop
  | cons op rest ih =>
      intro position
      rw [List.map_cons, List.map_cons, buildFunctions]
      refine Iff.trans (succeeds_bind_and fun action _ => succeeds_bind_pure) ?_
      rw [ih]
      refine ⟨?_, ?_⟩
      · rintro ⟨hfirst, hrest⟩ i op' hop'
        cases i with
        | zero =>
            cases hop'
            exact hfirst
        | succ i =>
            have h := hrest i op' hop'
            rwa [Nat.add_right_comm] at h
      · intro hall
        refine ⟨hall 0 op rfl, fun i op' hop' => ?_⟩
        have h := hall (i + 1) op' hop'
        rwa [Nat.add_right_comm]

end Functions

/-! ### Documents -/

/-- What the scenario that an operation carries comes to. -/
def embeddedBuild (op : Operation Scenario) : Option Built := op.embedded?.map build

theorem buildEmbedded_eq (operations : List (Operation Scenario)) :
    buildEmbedded operations = operations.map embeddedBuild := by
  induction operations with
  | nil => rfl
  | cons op rest ih =>
      rw [List.map_cons, ← ih]
      obtain ⟨kind, label, payload, wait, first, second⟩ := op
      match payload with
      | none => rfl
      | some (.startScenario ⟨.embedded s, arguments⟩) => rfl
      | some (.startScenario ⟨.named name, arguments⟩) => rfl
      | some (.startJob _) | some (.stopJob _) | some (.stopJobs _) | some (.stopScenario _)
      | some (.reboot _) | some (.branch _) | some (.loop _) => rfl

theorem build_eq (s : Scenario) : s.build = s.assemble (s.operations.map embeddedBuild) := by
  rw [← buildEmbedded_eq]
  cases s
  rfl

/-- The functions of the document of a scenario. -/
def functions (s : Scenario) : Except ScenarioError (List Document.Function) :=
  s.buildFunctions s.declarations 0 s.operations s.waits (s.operations.map embeddedBuild)

theorem build_eq_ok {s : Scenario} {d : Document} :
    s.build = .ok d ↔ (s.arguments.map Prod.fst ++ Keyed.keys s.constants).Nodup
      ∧ (∀ i op, s.operations[i]? = some op → s.WaitReady i op.wait)
      ∧ (∀ i, ¬ Relation.TransGen s.WaitsOn i i)
      ∧ ∃ functions, s.functions = .ok functions
        ∧ ⟨s.name, s.description, s.argumentTable, s.constantTable, functions⟩ = d := by
  rw [build_eq, assemble]
  simp only [bind_eq_ok, pure_eq_ok, buildWaits_eq_ok, Nat.zero_add]
  refine ⟨?_, ?_⟩
  · intro h
    obtain ⟨_, hnames, waits, ⟨hready, rfl⟩, _, hcycles, functions, hfunctions, rfl⟩ := h
    exact ⟨(checkNames_eq_ok s).mp hnames, hready,
      (acyclic_waits_iff hready).mp ((checkCycles_eq_ok _).mp hcycles), functions, hfunctions, rfl⟩
  · intro h
    obtain ⟨hnames, hready, hacyclic, functions, hfunctions, rfl⟩ := h
    exact ⟨(), (checkNames_eq_ok s).mpr hnames, s.waits, ⟨hready, rfl⟩, (),
      (checkCycles_eq_ok _).mpr ((acyclic_waits_iff hready).mpr hacyclic), functions, hfunctions,
      rfl⟩

/-- **A document that was built has a function for each operation, at the same place.** -/
theorem functions_of_build {s : Scenario} {d : Document} (hd : s.build = .ok d) :
    d.functions.length = s.operations.length ∧ ∀ i op, s.operations[i]? = some op →
      ∃ p action, op.payload = some p
        ∧ s.Enacts s.declarations i op (embeddedBuild op) p action
        ∧ d.functions[i]? = some ⟨i, labelOf op i, action, op.wait.built⟩ := by
  obtain ⟨-, -, -, functions, hfunctions, rfl⟩ := build_eq_ok.mp hd
  obtain ⟨hlength, hall⟩ := buildFunctions_eq_ok _ _ hfunctions
  refine ⟨hlength, fun i op hop => ?_⟩
  obtain ⟨action, haction, hf⟩ := hall i op hop
  rw [Nat.zero_add] at haction hf
  obtain ⟨p, hp, henacts⟩ := enacts_of_buildAction haction
  exact ⟨p, action, hp, henacts, hf⟩

/-- A function of a document that was built is that of the operation at its place. -/
theorem operation_of_build {s : Scenario} {d : Document} (hd : s.build = .ok d) {i : Nat}
    {f : Document.Function} (hf : d.functions[i]? = some f) : ∃ op p action,
      s.operations[i]? = some op ∧ op.payload = some p
        ∧ s.Enacts s.declarations i op (embeddedBuild op) p action
        ∧ f = ⟨i, labelOf op i, action, op.wait.built⟩ := by
  obtain ⟨hlength, hall⟩ := functions_of_build hd
  have hlt : i < s.operations.length := hlength ▸ (List.getElem?_eq_some_iff.mp hf).1
  have hop := List.getElem?_eq_getElem hlt
  obtain ⟨p, action, hp, henacts, hf'⟩ := hall i _ hop
  exact ⟨_, p, action, hop, hp, henacts, Option.some.inj (hf.symm.trans hf')⟩

end Scenario

end Testbed

/-
Which defect a build reports.

The tokens of an operation, its targets and its bodies are gone through one after the other, and
what an operation does not have is passed over.  A step is told from the others by its number, so
the defects of an operation, and those of a scenario, are collected step by step, and the first
one of them is the one that the first step that fails has found.
-/
import Testbed.Proofs.Scenario.Defects

namespace Testbed

open Outcome

namespace Scenario

/-! ### Tokens -/

/-- A reference of the operation at a position is missing. -/
def Unresolved (s : Scenario) (i : Nat) (leaf : Token) (e : ScenarioError) : Prop :=
  ∃ name, leaf.Missing s.argumentNames s.constantNames name ∧ e = .unknownReference name i

/-- The table of constants lacks the names that were not declared. -/
theorem unresolved_iff (s : Scenario) (i : Nat) (leaf : Token) (e : ScenarioError) :
    s.Unresolved i leaf e
      ↔ ∃ unknown, Token.Unknown s.declarations leaf unknown ∧ e = unknown.inOperation i := by
  have hnames : ∀ name, name ∈ Keyed.keys s.declarations.constants ↔ name ∈ s.constantNames :=
    Keyed.mem_keys_ofList s.constants
  refine ⟨?_, ?_⟩
  · intro h
    obtain ⟨name, hmissing, rfl⟩ := h
    exact ⟨⟨name⟩, hmissing.mono fun name hname => (hnames name).mp hname, rfl⟩
  · intro h
    obtain ⟨unknown, hmissing, rfl⟩ := h
    exact ⟨unknown.name, hmissing.mono fun name hname => (hnames name).mpr hname, rfl⟩

/-- What fails to resolve with the name of a reference fails in an operation with that name. -/
theorem finds_inOperation (s : Scenario) (i : Nat) {α : Type} {leaves : List Token}
    {x : Except UnknownName α} (h : Finds (Listed (Token.Unknown s.declarations) leaves) x)
    {y : Except ScenarioError α} (hok : ∀ a, x = .ok a → y = .ok a)
    (herror : ∀ unknown, x = .error unknown → y = .error (unknown.inOperation i)) :
    Finds (Listed (s.Unresolved i) leaves) y := by
  refine (h.mapError (·.inOperation i) hok herror).congr fun p e => ⟨?_, ?_⟩
  · intro h
    obtain ⟨unknown, ⟨k, leaf, rfl, stands, missing⟩, he⟩ := h
    exact ⟨k, leaf, rfl, stands, (s.unresolved_iff i leaf e).mpr ⟨unknown, missing, he⟩⟩
  · intro h
    obtain ⟨k, leaf, rfl, stands, missing⟩ := h
    obtain ⟨unknown, missing, he⟩ := (s.unresolved_iff i leaf e).mp missing
    exact ⟨unknown, ⟨k, leaf, rfl, stands, missing⟩, he⟩

theorem finds_resolveToken (s : Scenario) (i : Nat) (t : Token) :
    Finds (Listed (s.Unresolved i) t.leaves) (resolveToken s.declarations i t) := by
  refine s.finds_inOperation i (t.finds_resolve s.declarations) (fun a ha => ?_) fun e he => ?_
  · rw [resolveToken, ha]
  · rw [resolveToken, he]

theorem finds_resolveNamed (s : Scenario) (i : Nat) (entries : NamedTokens) :
    Finds (Listed (s.Unresolved i) ((entries.map Prod.snd).flatMap Token.leaves))
      (resolveNamed s.declarations i entries) := by
  have hentries : Finds (Listed (s.Unresolved i) ((entries.map Prod.snd).flatMap Token.leaves))
      (resolveEntries s.declarations i entries) := by
    induction entries with
    | nil => exact .nil []
    | cons entry rest ih =>
        exact (s.finds_resolveToken i entry.2).append fun value _ =>
          ih.bind_pure ((entry.1, value) :: ·)
  exact hentries.bind_pure Keyed.ofList

theorem finds_buildCondition (s : Scenario) (i : Nat) (c : Condition) :
    Finds (Listed (s.Unresolved i) (c.tokens.flatMap Token.leaves))
      (buildCondition s.declarations i c) := by
  refine s.finds_inOperation i (c.finds_build s.declarations) (fun a ha => ?_) fun e he => ?_
  · rw [buildCondition, ha]
  · rw [buildCondition, he]

/-! ### Targets -/

theorem finds_resolveTarget (s : Scenario) (i : Nat) (kind : Kind) (h : Handle) :
    Finds (s.TargetDefect i kind h) (s.resolveTarget i kind h) := by
  cases howns : s.owns h with
  | false =>
      rw [resolveTarget_of_foreign i kind howns]
      refine .error (.foreign howns) fun q e' hq => ?_
      cases hq <;> simp [Place.singleton_before_singleton]
  | true =>
      obtain ⟨target, htarget⟩ : ∃ target, s.operations[h.index]? = some target :=
        ⟨_, List.getElem?_eq_getElem (lt_size_of_owns howns)⟩
      rw [resolveTarget_of_owned i kind howns htarget]
      cases hstops : kind.stopTarget? with
      | none =>
          refine .ok _ fun p e hd => ?_
          cases hd with
          | foreign foreign => simp [howns] at foreign
          | kind _ _ stops _ => simp [hstops] at stops
      | some expected =>
          dsimp only
          by_cases hsame : expected = target.kind
          · rw [if_pos hsame]
            refine .ok _ fun p e hd => ?_
            cases hd with
            | foreign foreign => simp [howns] at foreign
            | kind _ found stops other =>
                cases hstops.symm.trans stops
                cases htarget.symm.trans found
                exact other hsame
          · rw [if_neg hsame]
            refine .error (.kind howns htarget hstops hsame) fun q e' hq => ?_
            cases hq with
            | foreign foreign => simp [howns] at foreign
            | kind _ _ _ _ => simp [Place.singleton_before_singleton]

/-! ### Actions -/

/-- What an operation does is gone through in five steps. -/
def actionSteps (s : Scenario) (i : Nat) (op : Operation Scenario) :
    Nat → Place → ScenarioError → Prop
  | 0 => fun p e => p = [] ∧ s.OpeningDefect i op e
  | 1 => Listed (s.Unresolved i) (op.tokens.flatMap Token.leaves)
  | 2 => Each fun k p e => ∃ h, op.targets[k]? = some h ∧ s.TargetDefect i op.kind h p e
  | 3 => fun p e => op.RunsBodies ∧ Listed s.Foreign op.firstBody p e
  | 4 => fun p e => op.RunsBodies ∧ Listed s.Foreign op.secondBody p e
  | _ => fun _ _ => False

theorem each_actionSteps_iff (s : Scenario) (i : Nat) (op : Operation Scenario) (p : Place)
    (e : ScenarioError) : Each (s.actionSteps i op) p e ↔ s.ActionDefect i op p e := by
  refine ⟨?_, ?_⟩
  · intro h
    obtain ⟨n, q, rfl, h⟩ := h
    match n, h with
    | 0, h =>
        obtain ⟨rfl, wrong⟩ := h
        exact .opening wrong
    | 1, h =>
        obtain ⟨k, leaf, rfl, stands, name, missing, rfl⟩ := h
        exact .reference stands missing
    | 2, h =>
        obtain ⟨k, q, rfl, target, stands, wrong⟩ := h
        exact .target stands wrong
    | 3, h =>
        obtain ⟨runs, k, a, rfl, stands, foreign, rfl⟩ := h
        exact .firstBody runs stands foreign
    | 4, h =>
        obtain ⟨runs, k, a, rfl, stands, foreign, rfl⟩ := h
        exact .secondBody runs stands foreign
    | n + 5, h => exact h.elim
  · intro h
    cases h with
    | opening wrong => exact ⟨0, _, rfl, rfl, wrong⟩
    | reference stands missing => exact ⟨1, _, rfl, _, _, rfl, stands, _, missing, rfl⟩
    | target stands wrong => exact ⟨2, _, rfl, _, _, rfl, _, stands, wrong⟩
    | firstBody runs stands foreign => exact ⟨3, _, rfl, runs, _, _, rfl, stands, foreign, rfl⟩
    | secondBody runs stands foreign => exact ⟨4, _, rfl, runs, _, _, rfl, stands, foreign, rfl⟩

section Steps

variable {s : Scenario} {i : Nat} {op : Operation Scenario} {p : Payload Scenario} {α : Type}
  {x : Except ScenarioError α}

/-- Only jobs and scenarios that are sent along can be refused as a whole. -/
theorem not_openingDefect (hp : op.payload = some p)
    (hkind : p.kind ∉ [Kind.startJob, .startScenario]) (e : ScenarioError) :
    ¬ s.OpeningDefect i op e := by
  intro h
  cases h with
  | unconfigured empty => simp [hp] at empty
  | jobName starts _ =>
      cases hp.symm.trans starts
      simp [Payload.kind] at hkind
  | subScenario carries _ =>
      obtain ⟨arguments, hlaunch⟩ := Operation.payload_of_embedded? carries
      cases hp.symm.trans hlaunch
      simp [Payload.kind] at hkind

theorem not_runsBodies (hp : op.payload = some p) (hkind : p.kind ∉ [Kind.branch, .loop]) :
    ¬ op.RunsBodies := by
  intro h
  obtain ⟨condition, h | h⟩ := h
  · cases hp.symm.trans h
    simp [Payload.kind] at hkind
  · cases hp.symm.trans h
    simp [Payload.kind] at hkind

/-- An operation that has to do with no others: its tokens come last. -/
theorem finds_tokens (hp : op.payload = some p) (htargets : p.targets = [])
    (hkind : p.kind ∉ [Kind.branch, .loop])
    (hx : Finds (Listed (s.Unresolved i) (p.tokens.flatMap Token.leaves)) x) :
    Finds (Each fun n => s.actionSteps i op (n + 1)) x := by
  rw [← Operation.tokens_eq hp] at hx
  refine .each_only hx fun n q e h => ?_
  rcases n with _ | _ | _ | n
  · obtain ⟨k, q, -, target, stands, -⟩ := h
    simp [Operation.targets_eq hp, htargets] at stands
  · exact not_runsBodies hp hkind h.1
  · exact not_runsBodies hp hkind h.1
  · exact h

/-- An operation that stops others has nothing but its targets. -/
theorem finds_targets (hp : op.payload = some p) (hstops : p.kind.stopTarget?.isSome = true)
    (hx : Finds (Each fun k q e => ∃ h, p.targets[k]? = some h
      ∧ s.TargetDefect i op.kind h q e) x) : Finds (s.ActionDefect i op) x := by
  have hothers : p.tokens = [] ∧ p.kind ∉ [Kind.startJob, .startScenario]
      ∧ p.kind ∉ [Kind.branch, .loop] := by
    cases p with
    | stopJob _ | stopJobs _ | stopScenario _ => simp [Payload.tokens, Payload.kind]
    | _ => simp [Payload.kind, Kind.stopTarget?] at hstops
  obtain ⟨htokens, hopens, hruns⟩ := hothers
  rw [← Operation.targets_eq hp] at hx
  refine Finds.congr (.each_skip (fun q e h => not_openingDefect hp hopens e h.2)
    (.each_skip (fun q e h => ?_) (.each_only hx fun n q e h => ?_))) (s.each_actionSteps_iff i op)
  · obtain ⟨k, leaf, -, stands, -⟩ := h
    simp [Operation.tokens_eq hp, htokens] at stands
  · rcases n with _ | _ | n
    · exact not_runsBodies hp hruns h.1
    · exact not_runsBodies hp hruns h.1
    · exact h

/-- An operation that runs others goes through its condition and then through its bodies. -/
theorem finds_bodies {condition : Condition}
    (hp : op.payload = some (.branch condition) ∨ op.payload = some (.loop condition))
    (action : Json → List Nat → List Nat → Document.Action) :
    Finds (s.ActionDefect i op) (do
      let value ← buildCondition s.declarations i condition
      let first ← s.resolveAll op.firstBody
      let second ← s.resolveAll op.secondBody
      return action value first second) := by
  have hopening : ∀ e, ¬ s.OpeningDefect i op e := by
    rcases hp with hp | hp
    · exact not_openingDefect hp (by simp [Payload.kind])
    · exact not_openingDefect hp (by simp [Payload.kind])
  have htokens : op.tokens = condition.tokens := hp.elim Operation.tokens_eq Operation.tokens_eq
  have htargets : op.targets = [] := hp.elim Operation.targets_eq Operation.targets_eq
  have hcondition : Finds (s.actionSteps i op 1) (buildCondition s.declarations i condition) := by
    rw [actionSteps, htokens]
    exact finds_buildCondition s i condition
  have hbody : ∀ handles, Finds (fun q e => op.RunsBodies ∧ Listed s.Foreign handles q e)
      (s.resolveAll handles) := fun handles =>
    (finds_resolveAll s handles).congr fun q e => (and_iff_right ⟨condition, hp⟩).symm
  refine Finds.congr (.each_skip (fun q e h => hopening e h.2) ?_) (s.each_actionSteps_iff i op)
  refine .each_cons hcondition fun value _ => .each_skip (fun q e h => ?_) ?_
  · obtain ⟨k, q, -, target, stands, -⟩ := h
    simp [htargets] at stands
  · exact .each_cons (hbody op.firstBody) fun first _ =>
      .each_only ((hbody op.secondBody).bind_pure _) fun n q e h => h

/-- The scenario that an operation sends along, if it sends one. -/
theorem finds_buildSubScenario {launch : ScenarioLaunch Scenario}
    (hp : op.payload = some (.startScenario launch)) :
    Finds (fun q e => q = [] ∧ s.OpeningDefect i op e)
      (buildSubScenario i launch.scenario.name (embeddedBuild op)) := by
  obtain ⟨scenario, arguments⟩ := launch
  have hnone : (∀ sub source, op.embedded? = some sub → sub.build ≠ .error source) →
      ∀ e, ¬ s.OpeningDefect i op e := by
    intro hbuilds e h
    cases h with
    | unconfigured empty => simp [hp] at empty
    | jobName starts _ => simp [hp] at starts
    | subScenario carries fails => exact hbuilds _ _ carries fails
  cases scenario with
  | named name =>
      have hembedded : op.embedded? = none := by rw [Operation.embedded?, hp]; rfl
      rw [embeddedBuild, hembedded]
      exact .ok _ fun q e h => hnone (fun sub source h => by simp [hembedded] at h) e h.2
  | embedded sub =>
      have hembedded : op.embedded? = some sub := by rw [Operation.embedded?, hp]; rfl
      rw [embeddedBuild, hembedded]
      cases hbuild : sub.build with
      | ok document =>
          have hbuilds : ∀ sub' source, op.embedded? = some sub' → sub'.build ≠ .error source := by
            intro sub' source h
            cases hembedded.symm.trans h
            simp [hbuild]
          rw [Option.map_some, hbuild]
          exact .ok _ fun q e h => hnone hbuilds e h.2
      | error source =>
          rw [Option.map_some, hbuild]
          exact .error ⟨rfl, .subScenario hembedded hbuild⟩ fun q _ _ => Place.not_before_nil q

theorem openingDefect_startJob {launch : JobLaunch} (hp : op.payload = some (.startJob launch))
    (e : ScenarioError) : s.OpeningDefect i op e
      ↔ launch.job ∈ Document.jobKeys ∧ e = .reservedJobName i launch.job := by
  refine ⟨?_, ?_⟩
  · intro h
    cases h with
    | unconfigured empty => simp [hp] at empty
    | jobName starts reserved =>
        cases hp.symm.trans starts
        exact ⟨reserved, rfl⟩
    | subScenario carries _ => simp [Operation.embedded?, hp, Payload.embedded?] at carries
  · intro h
    obtain ⟨reserved, rfl⟩ := h
    exact .jobName hp reserved

/-- A job that has a name of its own is left with its tokens. -/
theorem finds_buildJob {launch : JobLaunch} (hp : op.payload = some (.startJob launch)) :
    Finds (s.ActionDefect i op) (buildJob s.declarations i launch) := by
  have hsteps : buildJob s.declarations i launch
      = (if Document.jobKeys.contains launch.job then
          .error (.reservedJobName i launch.job) else .ok ()) >>= fun _ => do
        let arguments ← resolveNamed s.declarations i launch.arguments
        let entity ← resolveToken s.declarations i launch.entity
        return ⟨entity, launch.offset.seconds, launch.interval.map Duration.seconds,
          [(launch.job, .object arguments)]⟩ := by
    unfold buildJob
    split <;> rfl
  have hcheck : Finds (s.actionSteps i op 0) (if Document.jobKeys.contains launch.job then
      .error (.reservedJobName i launch.job) else .ok () : Except ScenarioError Unit) :=
    (Finds.check (fun h => if_pos (by simpa using h)) fun h =>
      ⟨(), if_neg (by simpa using h)⟩).congr fun q e =>
        and_congr_right fun _ => (openingDefect_startJob hp e).symm
  have htokens : (Payload.tokens (.startJob launch : Payload Scenario)).flatMap Token.leaves
      = (launch.arguments.map Prod.snd).flatMap Token.leaves ++ launch.entity.leaves := by
    rw [Payload.tokens, List.flatMap_append, List.flatMap_singleton]
  rw [hsteps]
  refine Finds.congr (.each_cons hcheck fun _ _ => finds_tokens hp rfl (by simp [Payload.kind]) ?_)
    (s.each_actionSteps_iff i op)
  rw [htokens]
  exact (s.finds_resolveNamed i launch.arguments).append fun arguments _ =>
    (s.finds_resolveToken i launch.entity).bind_pure _

end Steps

/-- **What an operation does is refused for the first thing that is wrong with it.** -/
theorem finds_buildAction (s : Scenario) (i : Nat) (op : Operation Scenario) :
    Finds (s.ActionDefect i op) (s.buildAction s.declarations i op (embeddedBuild op)) := by
  have htarget : ∀ target, Finds (Each fun k q e => ∃ h, [target][k]? = some h
      ∧ s.TargetDefect i op.kind h q e) (s.resolveTarget i op.kind target) := fun target =>
    .only_item (finds_resolveTarget s i op.kind target)
  unfold buildAction
  cases hp : op.payload with
  | none =>
      refine .error (.opening (.unconfigured hp)) fun q e h => ?_
      cases h with
      | opening _ => simp [Place.singleton_before_singleton]
      | reference stands _ => simp [Operation.tokens, hp] at stands
      | target stands _ => simp [Operation.targets, hp] at stands
      | firstBody runs _ _ => simp [Operation.RunsBodies, hp] at runs
      | secondBody runs _ _ => simp [Operation.RunsBodies, hp] at runs
  | some p =>
      cases p with
      | startJob launch => exact (finds_buildJob hp).bind_pure Document.Action.startJob
      | stopJob target =>
          exact (finds_targets hp rfl (htarget target)).bind_pure Document.Action.stopJob
      | stopJobs targets =>
          exact (finds_targets hp rfl (.mapM fun h _ => finds_resolveTarget s i op.kind h)).bind_pure
            Document.Action.stopJobs
      | startScenario launch =>
          refine Finds.congr (.each_cons (finds_buildSubScenario hp) fun scenario _ => ?_)
            (s.each_actionSteps_iff i op)
          exact finds_tokens hp rfl (by simp [Payload.kind])
            ((s.finds_resolveNamed i launch.arguments).bind_pure _)
      | stopScenario target =>
          exact (finds_targets hp rfl (htarget target)).bind_pure Document.Action.stopScenario
      | reboot entity =>
          refine Finds.congr (.each_skip ?_ (finds_tokens hp rfl (by simp [Payload.kind]) ?_))
            (s.each_actionSteps_iff i op)
          · exact fun q e h => not_openingDefect hp (by simp [Payload.kind]) e h.2
          · rw [Payload.tokens, List.flatMap_singleton]
            exact (s.finds_resolveToken i entity).bind_pure _
      | branch condition => exact finds_bodies (.inl hp) .branch
      | loop condition => exact finds_bodies (.inr hp) .loop

/-- The actions of the operations from a position on. -/
theorem finds_buildFunctions (s : Scenario) (wait : Operation Scenario → Document.Wait) :
    ∀ (operations : List (Operation Scenario)) (position : Nat),
    Finds (Each fun k p e => ∃ op, operations[k]? = some op ∧ s.ActionDefect (position + k) op p e)
      (s.buildFunctions s.declarations position operations (operations.map wait)
        (operations.map embeddedBuild)) := by
  intro operations
  induction operations with
  | nil => exact fun _ => .no_item []
  | cons op rest ih =>
      intro position
      rw [List.map_cons, List.map_cons, buildFunctions]
      exact .item_cons (finds_buildAction s position op) fun action _ =>
        .bind_pure (ih (position + 1)) _

/-! ### The first defect -/

/-- A scenario is gone through in five steps. -/
def buildSteps (s : Scenario) : Nat → Place → ScenarioError → Prop
  | 0 => Each fun k p e => p = [] ∧ ∃ name, s.argumentNames[k]? = some name
      ∧ name ∈ s.argumentNames.take k ∧ e = .duplicateName .arguments name
  | 1 => Each fun k p e => ∃ name, s.constantNames[k]? = some name
      ∧ ((p = [0] ∧ name ∈ s.constantNames.take k ∧ e = .duplicateName .constants name)
        ∨ (p = [1] ∧ name ∈ s.argumentNames ∧ e = .duplicateName .both name))
  | 2 => Each fun i p e => ∃ op, s.operations[i]? = some op ∧ s.WaitDefect i op.wait p e
  | 3 => fun p e => p = [] ∧ ∃ cycle, s.IsWaitCycle cycle ∧ e = .waitCycle cycle
  | 4 => Each fun i p e => ∃ op, s.operations[i]? = some op ∧ s.ActionDefect i op p e
  | _ => fun _ _ => False

theorem each_buildSteps_iff (s : Scenario) (p : Place) (e : ScenarioError) :
    Each s.buildSteps p e ↔ s.Defect p e := by
  refine ⟨?_, ?_⟩
  · intro h
    obtain ⟨n, q, rfl, h⟩ := h
    match n, h with
    | 0, h =>
        obtain ⟨k, q, rfl, rfl, name, declared, earlier, rfl⟩ := h
        exact .argument declared earlier
    | 1, h =>
        obtain ⟨k, q, rfl, name, declared, ⟨rfl, earlier, rfl⟩ | ⟨rfl, argument, rfl⟩⟩ := h
        · exact .constant declared earlier
        · exact .clash declared argument
    | 2, h =>
        obtain ⟨i, q, rfl, op, found, wrong⟩ := h
        exact .wait found wrong
    | 3, h =>
        obtain ⟨rfl, cycle, waits, rfl⟩ := h
        exact .cycle waits
    | 4, h =>
        obtain ⟨i, q, rfl, op, found, wrong⟩ := h
        exact .action found wrong
    | n + 5, h => exact h.elim
  · intro h
    cases h with
    | argument declared earlier =>
        exact ⟨0, _, rfl, _, _, rfl, rfl, _, declared, earlier, rfl⟩
    | constant declared earlier =>
        exact ⟨1, _, rfl, _, _, rfl, _, declared, Or.inl ⟨rfl, earlier, rfl⟩⟩
    | clash declared argument =>
        exact ⟨1, _, rfl, _, _, rfl, _, declared, Or.inr ⟨rfl, argument, rfl⟩⟩
    | wait found wrong => exact ⟨2, _, rfl, _, _, rfl, _, found, wrong⟩
    | cycle waits => exact ⟨3, _, rfl, rfl, _, waits, rfl⟩
    | action found wrong => exact ⟨4, _, rfl, _, _, rfl, _, found, wrong⟩

/-- **A build fails exactly if there is a defect, and then with one that no other one is
before.** -/
theorem finds_build (s : Scenario) : Finds s.Defect s.build := by
  have harguments := finds_firstRepeated? s.argumentNames []
  have hconstants := finds_firstClash? s.argumentNames s.constantNames []
  have hwaits := s.finds_buildWaits s.operations 0
  have hactions := s.finds_buildFunctions (·.wait.built) s.operations 0
  simp only [List.not_mem_nil, false_or] at harguments hconstants
  simp only [Nat.zero_add] at hwaits hactions
  rw [build_eq, assemble, checkNames_eq, bind_assoc]
  refine Finds.congr ?_ s.each_buildSteps_iff
  refine .each_cons harguments fun _ _ => .each_cons hconstants fun _ _ =>
    .each_cons hwaits fun waits hbuilt => ?_
  -- Once all handles are owned, the numbers that are searched for a circle tell the operations.
  obtain ⟨hready, rfl⟩ := buildWaits_eq_ok.mp hbuilt
  simp only [Nat.zero_add] at hready
  refine .each_cons (finds_checkCycles hready) fun _ _ => .each_only ?_ fun n q e h => h
  exact hactions.bind_pure _

/--
**A build that fails reports the first defect of the scenario.**

A build fails exactly if there is a defect.  It reports one that is there, no defect is before it,
and there is no other one at the same place, unless it is a circle of waits.
-/
theorem build_error_first (s : Scenario) :
    ((∃ e, s.build = .error e) ↔ ∃ p e, s.Defect p e)
      ∧ ∀ e, s.build = .error e → ∃ p, s.Defect p e ∧ ∀ q e', s.Defect q e' →
        ¬ q.Before p ∧ (q = p → e' = e ∨ p = [3]) := by
  refine ⟨⟨?_, ?_⟩, ?_⟩
  · intro h
    obtain ⟨e, he⟩ := h
    obtain ⟨p, hdefect, -⟩ := s.finds_build.first e he
    exact ⟨p, e, hdefect⟩
  · intro h
    obtain ⟨p, e, hdefect⟩ := h
    cases hbuild : s.build with
    | ok d => exact absurd hdefect (s.finds_build.nothing d hbuild p e)
    | error e' => exact ⟨e', rfl⟩
  · intro e he
    obtain ⟨p, hdefect, hfirst⟩ := s.finds_build.first e he
    refine ⟨p, hdefect, fun q e' hq => ⟨hfirst q e' hq, ?_⟩⟩
    rintro rfl
    exact hdefect.unique hq

/-- The first operation is lost for a name, the second one was never configured, and the third one
waits on the second one, which waits on it, and on itself. -/
def tangled : Scenario :=
  ⟨0, [], "Tangled", "", [], [], [
    ⟨.reboot, none, some (.reboot (.placeholder "agent")), .immediate, [], []⟩,
    ⟨.reboot, none, none, ⟨.zero, [], [⟨0, 2⟩]⟩, [], []⟩,
    ⟨.reboot, none, some (.reboot (.literal (.string "agent"))), ⟨.zero, [⟨0, 2⟩], [⟨0, 1⟩]⟩, [],
      []⟩]⟩

/-- The wait on itself is reported, as the circle and the rest are behind it. -/
theorem tangled_build : tangled.build = .error (.selfWait 2)
    ∧ tangled.Defect [4, 0, 1, 0] (.unknownReference "agent" 0)
    ∧ tangled.Defect [4, 1, 0] (.unconfigured 1 .reboot)
    ∧ ∃ p, tangled.Defect p (.selfWait 2) ∧ ∀ q e', tangled.Defect q e' →
      ¬ q.Before p ∧ (q = p → e' = .selfWait 2 ∨ p = [3]) := by
  have hbuild : tangled.build = .error (.selfWait 2) := by cbv
  have hagent : Token.Missing tangled.argumentNames tangled.constantNames (.placeholder "agent")
      "agent" := .placeholder (by simp [tangled, constantNames, Keyed.keys])
    (by simp [tangled, argumentNames])
  exact ⟨hbuild, .action rfl (.reference rfl hagent), .action rfl (.opening (.unconfigured rfl)),
    (build_error_first tangled).2 _ hbuild⟩

end Scenario

end Testbed

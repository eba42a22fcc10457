/-
What a build depends on.

A build reads the names, the values and the order of a scenario; of a handle it reads the
index, and whether the scenario owns it.  It never reads an identity.  So a scenario whose
handles were exchanged for others is built to the same document, or fails with the same
error, as long as every handle in it is answered as before and every embedded scenario is
built as before.

`Alike` says when one scenario reads like another one.  Each step of a build then gets one
lemma that says that it comes to the same for both.
-/
import Testbed.Proofs.Scenario.Actions

namespace Testbed

/-! ### Handles in operations -/

section Handles

variable {σ : Type}

/-- A wait with other handles. -/
def Wait.mapHandles (g : Handle → Handle) (w : Wait) : Wait :=
  ⟨w.delay, w.launched.map g, w.finished.map g⟩

/-- A payload that points at other handles. -/
def Payload.mapHandles (g : Handle → Handle) : Payload σ → Payload σ
  | stopJob target => stopJob (g target)
  | stopJobs targets => stopJobs (targets.map g)
  | stopScenario target => stopScenario (g target)
  | p => p

theorem Payload.mapHandles_id (p : Payload σ) : p.mapHandles id = p := by
  cases p with
  | stopJobs targets => exact congrArg stopJobs (List.map_id targets)
  | startJob _ | stopJob _ | startScenario _ | stopScenario _ | reboot _ | branch _ | loop _ => rfl

namespace Operation

/-- All handles that an operation holds. -/
def handles (op : Operation σ) : List Handle :=
  op.wait.references ++ (op.payload.elim [] Payload.targets ++ (op.firstBody ++ op.secondBody))

/-- An operation that holds other handles. -/
def mapHandles (g : Handle → Handle) (op : Operation σ) : Operation σ :=
  ⟨op.kind, op.label, op.payload.map (Payload.mapHandles g), op.wait.mapHandles g,
    op.firstBody.map g, op.secondBody.map g⟩

theorem mapHandles_id (op : Operation σ) : op.mapHandles id = op := by
  have hpayload : op.payload.map (Payload.mapHandles id) = op.payload := by
    cases op.payload with
    | none => rfl
    | some p => exact congrArg some p.mapHandles_id
  simp only [mapHandles, Wait.mapHandles, hpayload, List.map_id]

/-- Handles are no part of the scenario that an operation carries. -/
theorem embedded?_mapHandles (g : Handle → Handle) (op : Operation σ) :
    (op.mapHandles g).embedded? = op.embedded? := by
  unfold embedded? mapHandles
  cases op.payload with
  | none => rfl
  | some p => cases p <;> rfl

/-- What holds of all handles of an operation, list by list. -/
theorem forall_handles {op : Operation σ} {P : Handle → Prop} (h : ∀ a ∈ op.handles, P a) :
    (∀ a ∈ op.wait.launched, P a) ∧ (∀ a ∈ op.wait.finished, P a)
      ∧ (∀ p, op.payload = some p → ∀ a ∈ p.targets, P a)
      ∧ (∀ a ∈ op.firstBody, P a) ∧ ∀ a ∈ op.secondBody, P a := by
  simp only [handles, Wait.references, List.forall_mem_append] at h
  obtain ⟨⟨hlaunched, hfinished⟩, htargets, hfirst, hsecond⟩ := h
  refine ⟨hlaunched, hfinished, fun p hp => ?_, hfirst, hsecond⟩
  rw [hp] at htargets
  exact htargets

end Operation

end Handles

namespace Scenario

/-! ### Scenarios that read alike -/

/-- An operation reads like another one: it holds the handles that go with its handles, and what
it carries is built to the same. -/
def OperationAlike (g : Handle → Handle) (op op' : Operation Scenario) : Prop :=
  ∃ sub', op' = (op.mapHandles g).withEmbedded sub'
    ∧ ∀ sub, op.embedded? = some sub → sub'.name = sub.name ∧ sub'.build = sub.build

/-- Two scenarios answer a handle and the one that goes with it alike. -/
def AnswersAlike (g : Handle → Handle) (s t : Scenario) (h : Handle) : Prop :=
  (g h).index = h.index ∧ t.owns (g h) = s.owns h

/-- A scenario reads like another one: it says the same, with the handles that go with the
handles, and it answers them alike. -/
structure Alike (g : Handle → Handle) (s t : Scenario) : Prop where
  name : t.name = s.name
  description : t.description = s.description
  arguments : t.arguments = s.arguments
  constants : t.constants = s.constants
  operations : List.Forall₂ (OperationAlike g) s.operations t.operations
  answers : ∀ op ∈ s.operations, ∀ h ∈ op.handles, AnswersAlike g s t h

namespace OperationAlike

variable {g : Handle → Handle} {op op' : Operation Scenario}

/-- All parts of an operation but its payload. -/
theorem parts (h : OperationAlike g op op') :
    op'.kind = op.kind ∧ op'.label = op.label ∧ op'.wait = op.wait.mapHandles g
      ∧ op'.firstBody = op.firstBody.map g ∧ op'.secondBody = op.secondBody.map g := by
  obtain ⟨sub', rfl, -⟩ := h
  unfold Operation.withEmbedded
  split
  · exact ⟨rfl, rfl, rfl, rfl, rfl⟩
  · exact ⟨rfl, rfl, rfl, rfl, rfl⟩

/-- An operation that carries no scenario has the same payload, but for handles. -/
theorem payload (h : OperationAlike g op op') (hnone : op.embedded? = none) :
    op'.payload = op.payload.map (Payload.mapHandles g) := by
  obtain ⟨sub', rfl, -⟩ := h
  rw [Operation.withEmbedded_of_none ((op.embedded?_mapHandles g).trans hnone)]
  rfl

/-- An operation that carries a scenario carries one of the same name. -/
theorem payload_embedded (h : OperationAlike g op op') {sub : Scenario} {arguments : NamedTokens}
    (hp : op.payload = some (.startScenario ⟨.embedded sub, arguments⟩)) :
    ∃ sub', op'.payload = some (.startScenario ⟨.embedded sub', arguments⟩)
      ∧ sub'.name = sub.name := by
  obtain ⟨sub', rfl, hsame⟩ := h
  have hmapped : (op.mapHandles g).payload
      = some (.startScenario ⟨.embedded sub, arguments⟩) := by
    rw [Operation.mapHandles, hp]
    rfl
  have hembedded : op.embedded? = some sub := by
    rw [Operation.embedded?, hp]
    rfl
  refine ⟨sub', ?_, (hsame sub hembedded).1⟩
  rw [Operation.withEmbedded_of_payload hmapped]

/-- What an operation carries is built to the same. -/
theorem embeddedBuild_eq (h : OperationAlike g op op') :
    embeddedBuild op' = embeddedBuild op := by
  obtain ⟨sub', rfl, hsame⟩ := h
  unfold embeddedBuild
  cases hembedded : op.embedded? with
  | none =>
      have hmapped := (op.embedded?_mapHandles g).trans hembedded
      rw [Operation.withEmbedded_of_none hmapped, hmapped]
  | some sub =>
      rw [Operation.embedded?_withEmbedded ((op.embedded?_mapHandles g).trans hembedded),
        Option.map_some, Option.map_some, (hsame sub hembedded).2]

end OperationAlike

namespace Alike

variable {g : Handle → Handle} {s t : Scenario}

/-! ### Handles -/

theorem resolve_eq (hname : t.name = s.name) {h : Handle} (ha : AnswersAlike g s t h) :
    t.resolve (g h) = s.resolve h := by
  unfold resolve
  rw [hname, ha.1, ha.2]

theorem resolveAll_eq (hname : t.name = s.name) {handles : List Handle}
    (ha : ∀ h ∈ handles, AnswersAlike g s t h) :
    t.resolveAll (handles.map g) = s.resolveAll handles := by
  unfold resolveAll
  induction handles with
  | nil => rfl
  | cons h rest ih =>
      obtain ⟨hhead, hrest⟩ := List.forall_mem_cons.mp ha
      rw [List.map_cons, List.mapM_cons, List.mapM_cons, resolve_eq hname hhead, ih hrest]

theorem exists_operation (halike : Alike g s t) {i : Nat} {op : Operation Scenario}
    (hop : s.operations[i]? = some op) :
    ∃ op', t.operations[i]? = some op' ∧ OperationAlike g op op' := by
  obtain ⟨hlt, rfl⟩ := List.getElem?_eq_some_iff.mp hop
  have hlt' : i < t.operations.length := halike.operations.length_eq ▸ hlt
  exact ⟨_, List.getElem?_eq_getElem hlt',
    (List.forall₂_iff_get.mp halike.operations).2 i hlt hlt'⟩

theorem resolveTarget_eq (halike : Alike g s t) (position : Nat) (kind : Kind) {h : Handle}
    (ha : AnswersAlike g s t h) :
    t.resolveTarget position kind (g h) = s.resolveTarget position kind h := by
  obtain ⟨hindex, howns⟩ := ha
  by_cases howned : s.owns h = true
  · have hop := List.getElem?_eq_getElem (lt_size_of_owns howned)
    obtain ⟨op', hop', hlike⟩ := halike.exists_operation hop
    rw [← hindex] at hop'
    rw [resolveTarget_of_owned position kind howned hop,
      resolveTarget_of_owned position kind (howns.trans howned) hop', hindex, hlike.parts.1]
  · have hforeign : s.owns h = false := by simpa using howned
    rw [resolveTarget_of_foreign position kind hforeign,
      resolveTarget_of_foreign position kind (howns.trans hforeign), hindex, halike.name]

theorem resolveTargets_eq (halike : Alike g s t) (position : Nat) (kind : Kind)
    {targets : List Handle} (ha : ∀ h ∈ targets, AnswersAlike g s t h) :
    (targets.map g).mapM (t.resolveTarget position kind)
      = targets.mapM (s.resolveTarget position kind) := by
  induction targets with
  | nil => rfl
  | cons h rest ih =>
      obtain ⟨hhead, hrest⟩ := List.forall_mem_cons.mp ha
      rw [List.map_cons, List.mapM_cons, List.mapM_cons, halike.resolveTarget_eq _ _ hhead,
        ih hrest]

/-! ### Waits -/

theorem buildWait_eq (hname : t.name = s.name) (position : Nat) {w : Wait}
    (hlaunched : ∀ h ∈ w.launched, AnswersAlike g s t h)
    (hfinished : ∀ h ∈ w.finished, AnswersAlike g s t h) :
    t.buildWait position (w.mapHandles g) = s.buildWait position w := by
  unfold buildWait Wait.mapHandles
  rw [resolveAll_eq hname hlaunched, resolveAll_eq hname hfinished]

theorem buildWaits_eq (hname : t.name = s.name) {operations operations' : List (Operation Scenario)}
    (hoperations : List.Forall₂ (OperationAlike g) operations operations')
    (ha : ∀ op ∈ operations, ∀ h ∈ op.handles, AnswersAlike g s t h) (position : Nat) :
    t.buildWaits position operations' = s.buildWaits position operations := by
  induction hoperations generalizing position with
  | nil => rfl
  | @cons op op' _ _ hlike _ ih =>
      obtain ⟨hhead, hrest⟩ := List.forall_mem_cons.mp ha
      obtain ⟨hlaunched, hfinished, -⟩ := Operation.forall_handles hhead
      rw [buildWaits, buildWaits, hlike.parts.2.2.1,
        buildWait_eq hname position hlaunched hfinished, ih hrest]

/-! ### Actions -/

theorem buildAction_eq (halike : Alike g s t) {op op' : Operation Scenario}
    (hlike : OperationAlike g op op') (ha : ∀ h ∈ op.handles, AnswersAlike g s t h)
    (d : Declarations) (position : Nat) :
    t.buildAction d position op' (embeddedBuild op')
      = s.buildAction d position op (embeddedBuild op) := by
  obtain ⟨hkind, -, -, hfirstBody, hsecondBody⟩ := hlike.parts
  obtain ⟨-, -, htargets, hfirst, hsecond⟩ := Operation.forall_handles ha
  have hbodies : t.resolveAll op'.firstBody = s.resolveAll op.firstBody
      ∧ t.resolveAll op'.secondBody = s.resolveAll op.secondBody := by
    rw [hfirstBody, hsecondBody]
    exact ⟨resolveAll_eq halike.name hfirst, resolveAll_eq halike.name hsecond⟩
  rw [hlike.embeddedBuild_eq]
  unfold buildAction
  rw [hkind]
  cases hembedded : op.embedded? with
  | some sub =>
      obtain ⟨arguments, hp⟩ := Operation.payload_of_embedded? hembedded
      obtain ⟨sub', hp', hname⟩ := hlike.payload_embedded hp
      simp only [hp, hp', SubScenario.name, hname]
  | none =>
      rw [hlike.payload hembedded]
      cases hp : op.payload with
      | none => rfl
      | some p =>
          have hanswers := htargets p hp
          cases p with
          | stopJob target | stopScenario target =>
              have htarget := halike.resolveTarget_eq position op.kind
                (hanswers target List.mem_cons_self)
              simp only [Option.map_some, Payload.mapHandles, htarget]
          | stopJobs targets =>
              have hall : (targets.map g).mapM (t.resolveTarget position op.kind)
                  = targets.mapM (s.resolveTarget position op.kind) :=
                halike.resolveTargets_eq position op.kind hanswers
              simp only [Option.map_some, Payload.mapHandles, hall]
          | branch condition | loop condition =>
              simp only [Option.map_some, Payload.mapHandles, hbodies.1, hbodies.2]
          | startJob launch | startScenario launch | reboot entity => rfl

theorem buildFunctions_eq (halike : Alike g s t) (d : Declarations)
    {operations operations' : List (Operation Scenario)}
    (hoperations : List.Forall₂ (OperationAlike g) operations operations')
    (ha : ∀ op ∈ operations, ∀ h ∈ op.handles, AnswersAlike g s t h) (position : Nat)
    (waits : List Document.Wait) :
    t.buildFunctions d position operations' waits (operations'.map embeddedBuild)
      = s.buildFunctions d position operations waits (operations.map embeddedBuild) := by
  induction hoperations generalizing position waits with
  | nil => rfl
  | @cons op op' _ _ hlike _ ih =>
      obtain ⟨hhead, hrest⟩ := List.forall_mem_cons.mp ha
      cases waits with
      | nil => rfl
      | cons wait waits =>
          simp only [List.map_cons, buildFunctions, labelOf, hlike.parts.2.1,
            halike.buildAction_eq hlike hhead, ih hrest]

/-! ### Documents -/

/-- **A scenario that reads like another one is built to the same document, or fails with the
same error.** -/
theorem build_eq (halike : Alike g s t) : t.build = s.build := by
  have hdeclarations : t.declarations = s.declarations := by
    rw [declarations, declarations, halike.arguments, halike.constants]
  have hchecked : t.checkNames = s.checkNames := by
    rw [checkNames, checkNames, halike.arguments, halike.constants]
  rw [Scenario.build_eq, Scenario.build_eq, assemble, assemble, hchecked, hdeclarations,
    buildWaits_eq halike.name halike.operations halike.answers, argumentTable, argumentTable,
    constantTable, constantTable, halike.name, halike.description, halike.arguments,
    halike.constants]
  simp only [halike.buildFunctions_eq _ halike.operations halike.answers]

end Alike

end Scenario

end Testbed

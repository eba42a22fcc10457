/-
What is wrong with a scenario.

A scenario may have many defects.  Each has a place, and places are ordered as a build goes
through a scenario: first repeated names, of arguments and then of constants; then the waits
of the operations; then circles of waits; then what the operations do, one after the other.
Within an operation it is what makes the operation as a whole useless, then the references in its
tokens, then the operations that it stops, then the operations that it runs.

What is a defect is said of the scenario alone, without the build.  The steps of a build that
have to do with the scenario as a whole, its names and its waits, each find the first of theirs.
-/
import Testbed.Proofs.Missing
import Testbed.Proofs.Scenario.Actions

namespace Testbed

open Outcome

/-! ### Defects -/

namespace Operation

/-- The tokens of an operation, in the order in which they are resolved. -/
def tokens (op : Operation Scenario) : List Token := op.payload.elim [] Payload.tokens

/-- What an operation stops. -/
def targets (op : Operation Scenario) : List Handle := op.payload.elim [] Payload.targets

theorem tokens_eq {op : Operation Scenario} {p : Payload Scenario} (hp : op.payload = some p) :
    op.tokens = p.tokens := by
  rw [tokens, hp]
  rfl

theorem targets_eq {op : Operation Scenario} {p : Payload Scenario} (hp : op.payload = some p) :
    op.targets = p.targets := by
  rw [targets, hp]
  rfl

/-- An operation has a condition, and runs one of its bodies. -/
def RunsBodies (op : Operation Scenario) : Prop :=
  ∃ condition, op.payload = some (.branch condition) ∨ op.payload = some (.loop condition)

end Operation

namespace Scenario

/-- The names of the arguments, in the order in which they were declared. -/
def argumentNames (s : Scenario) : List String := s.arguments.map Prod.fst

/-- The names of the constants, in the order in which they were declared. -/
def constantNames (s : Scenario) : List String := Keyed.keys s.constants

/-- A way along the waits that comes back to its first operation, and to no other one. -/
structure IsWaitCycle (s : Scenario) (cycle : List Nat) : Prop where
  closed : ∃ node inner, cycle = node :: inner ++ [node] ∧ (node :: inner).Nodup
  waits : cycle.IsChain s.WaitsOn

/-- What is wrong with the wait of the operation at a position. -/
inductive WaitDefect (s : Scenario) (i : Nat) (w : Wait) : Place → ScenarioError → Prop
  | launched {k : Nat} {h : Handle} (stands : w.launched[k]? = some h)
      (foreign : s.owns h = false) : WaitDefect s i w [0, k] (.foreignOperation s.name h.index)
  | finished {k : Nat} {h : Handle} (stands : w.finished[k]? = some h)
      (foreign : s.owns h = false) : WaitDefect s i w [1, k] (.foreignOperation s.name h.index)
  | itself {h : Handle} (stands : h ∈ w.references) (owned : s.owns h = true)
      (same : h.index = i) : WaitDefect s i w [2] (.selfWait i)

/-- What is wrong with something that the operation at a position is to stop. -/
inductive TargetDefect (s : Scenario) (i : Nat) (kind : Kind) (h : Handle) :
    Place → ScenarioError → Prop
  | foreign (foreign : s.owns h = false) :
      TargetDefect s i kind h [0] (.foreignOperation s.name h.index)
  | kind {target : Operation Scenario} {expected : Kind} (owned : s.owns h = true)
      (found : s.operations[h.index]? = some target) (stops : kind.stopTarget? = some expected)
      (other : expected ≠ target.kind) :
      TargetDefect s i kind h [1] (.invalidTarget i h.index expected target.kind)

/-- What makes the operation at a position useless as a whole. -/
inductive OpeningDefect (s : Scenario) (i : Nat) (op : Operation Scenario) : ScenarioError → Prop
  | unconfigured (empty : op.payload = none) : OpeningDefect s i op (.unconfigured i op.kind)
  | jobName {launch : JobLaunch} (starts : op.payload = some (.startJob launch))
      (reserved : launch.job ∈ Document.jobKeys) :
      OpeningDefect s i op (.reservedJobName i launch.job)
  /-- A scenario that is sent along cannot be built by itself. -/
  | subScenario {sub : Scenario} {source : ScenarioError} (carries : op.embedded? = some sub)
      (fails : sub.build = .error source) :
      OpeningDefect s i op (.subScenario sub.name i source)

/-- What is wrong with what the operation at a position does. -/
inductive ActionDefect (s : Scenario) (i : Nat) (op : Operation Scenario) :
    Place → ScenarioError → Prop
  | opening {e : ScenarioError} (wrong : s.OpeningDefect i op e) : ActionDefect s i op [0] e
  | reference {k : Nat} {leaf : Token} {name : String}
      (stands : (op.tokens.flatMap Token.leaves)[k]? = some leaf)
      (missing : leaf.Missing s.argumentNames s.constantNames name) :
      ActionDefect s i op [1, k] (.unknownReference name i)
  | target {k : Nat} {h : Handle} {p : Place} {e : ScenarioError}
      (stands : op.targets[k]? = some h) (wrong : s.TargetDefect i op.kind h p e) :
      ActionDefect s i op (2 :: k :: p) e
  | firstBody {k : Nat} {h : Handle} (runs : op.RunsBodies) (stands : op.firstBody[k]? = some h)
      (foreign : s.owns h = false) :
      ActionDefect s i op [3, k] (.foreignOperation s.name h.index)
  | secondBody {k : Nat} {h : Handle} (runs : op.RunsBodies) (stands : op.secondBody[k]? = some h)
      (foreign : s.owns h = false) :
      ActionDefect s i op [4, k] (.foreignOperation s.name h.index)

/-- What is wrong with a scenario: where a build comes upon it, and the error that tells of it. -/
inductive Defect (s : Scenario) : Place → ScenarioError → Prop
  | argument {k : Nat} {name : String} (declared : s.argumentNames[k]? = some name)
      (earlier : name ∈ s.argumentNames.take k) :
      Defect s [0, k] (.duplicateName .arguments name)
  | constant {k : Nat} {name : String} (declared : s.constantNames[k]? = some name)
      (earlier : name ∈ s.constantNames.take k) :
      Defect s [1, k, 0] (.duplicateName .constants name)
  | clash {k : Nat} {name : String} (declared : s.constantNames[k]? = some name)
      (argument : name ∈ s.argumentNames) : Defect s [1, k, 1] (.duplicateName .both name)
  | wait {i : Nat} {op : Operation Scenario} {p : Place} {e : ScenarioError}
      (found : s.operations[i]? = some op) (wrong : s.WaitDefect i op.wait p e) :
      Defect s (2 :: i :: p) e
  | cycle {cycle : List Nat} (waits : s.IsWaitCycle cycle) : Defect s [3] (.waitCycle cycle)
  | action {i : Nat} {op : Operation Scenario} {p : Place} {e : ScenarioError}
      (found : s.operations[i]? = some op) (wrong : s.ActionDefect i op p e) :
      Defect s (4 :: i :: p) e

/-! ### One defect at a place -/

theorem WaitDefect.unique {s : Scenario} {i : Nat} {w : Wait} {p : Place} {e e' : ScenarioError}
    (h : s.WaitDefect i w p e) (h' : s.WaitDefect i w p e') : e' = e := by
  cases h <;> cases h' <;> simp_all

theorem TargetDefect.unique {s : Scenario} {i : Nat} {kind : Kind} {h : Handle} {p : Place}
    {e e' : ScenarioError} (hd : s.TargetDefect i kind h p e)
    (hd' : s.TargetDefect i kind h p e') : e' = e := by
  cases hd <;> cases hd' <;> simp_all

theorem OpeningDefect.unique {s : Scenario} {i : Nat} {op : Operation Scenario}
    {e e' : ScenarioError} (h : s.OpeningDefect i op e) (h' : s.OpeningDefect i op e') :
    e' = e := by
  cases h with
  | unconfigured empty =>
      cases h' with
      | unconfigured _ => rfl
      | jobName starts _ => simp [empty] at starts
      | subScenario carries _ => simp [Operation.embedded?, empty] at carries
  | jobName starts _ =>
      cases h' with
      | unconfigured empty => simp [empty] at starts
      | jobName starts' _ =>
          cases starts.symm.trans starts'
          rfl
      | subScenario carries _ => simp [Operation.embedded?, starts, Payload.embedded?] at carries
  | subScenario carries fails =>
      cases h' with
      | unconfigured empty => simp [Operation.embedded?, empty] at carries
      | jobName starts _ => simp [Operation.embedded?, starts, Payload.embedded?] at carries
      | subScenario carries' fails' =>
          cases carries.symm.trans carries'
          cases fails.symm.trans fails'
          rfl

theorem ActionDefect.unique {s : Scenario} {i : Nat} {op : Operation Scenario} {p : Place}
    {e e' : ScenarioError} (h : s.ActionDefect i op p e) (h' : s.ActionDefect i op p e') :
    e' = e := by
  cases h with
  | opening wrong =>
      cases h' with
      | opening wrong' => exact wrong.unique wrong'
  | reference stands missing =>
      cases h' with
      | reference stands' missing' =>
          cases stands.symm.trans stands'
          rw [missing.unique missing']
  | target stands wrong =>
      cases h' with
      | target stands' wrong' =>
          cases stands.symm.trans stands'
          exact wrong.unique wrong'
  | firstBody _ stands _ =>
      cases h' with
      | firstBody _ stands' _ =>
          cases stands.symm.trans stands'
          rfl
  | secondBody _ stands _ =>
      cases h' with
      | secondBody _ stands' _ =>
          cases stands.symm.trans stands'
          rfl

/-- A place tells what is wrong there, except that there may be many circles of waits. -/
theorem Defect.unique {s : Scenario} {p : Place} {e e' : ScenarioError} (h : s.Defect p e)
    (h' : s.Defect p e') : e' = e ∨ p = [3] := by
  cases h with
  | argument declared _ =>
      cases h' with
      | argument declared' _ => exact Or.inl (by cases declared.symm.trans declared'; rfl)
  | constant declared _ =>
      cases h' with
      | constant declared' _ => exact Or.inl (by cases declared.symm.trans declared'; rfl)
  | clash declared _ =>
      cases h' with
      | clash declared' _ => exact Or.inl (by cases declared.symm.trans declared'; rfl)
  | wait found wrong =>
      left
      cases h' with
      | wait found' wrong' =>
          cases found.symm.trans found'
          exact wrong.unique wrong'
  | cycle _ => exact Or.inr rfl
  | action found wrong =>
      left
      cases h' with
      | action found' wrong' =>
          cases found.symm.trans found'
          exact wrong.unique wrong'

/-! ### Names -/

/-- A name is not the first one of its list, or not the first one at all. -/
theorem mem_take_succ_iff {first name : String} {rest seen : List String} {k : Nat} :
    (name ∈ seen ∨ name ∈ (first :: rest).take (k + 1))
      ↔ name ∈ first :: seen ∨ name ∈ rest.take k := by
  rw [List.take_succ_cons, List.mem_cons, List.mem_cons]
  exact or_left_comm.trans or_assoc.symm

/-- Argument names are looked at one by one; those of before are kept apart. -/
theorem finds_firstRepeated? : ∀ (names seen : List String),
    Finds (Each fun k p e => p = [] ∧ ∃ name, names[k]? = some name
        ∧ (name ∈ seen ∨ name ∈ names.take k) ∧ e = .duplicateName .arguments name)
      (refuse ((firstRepeated? seen names).map (ScenarioError.duplicateName .arguments))) := by
  intro names
  induction names with
  | nil => intro seen; exact .ok () fun p e ⟨k, q, _, _, name, h, _⟩ => by cases h
  | cons first rest ih =>
      intro seen
      have hstep : refuse ((firstRepeated? seen (first :: rest)).map
            (ScenarioError.duplicateName .arguments))
          = (if seen.contains first then .error (.duplicateName .arguments first) else .ok ())
            >>= fun _ => refuse ((firstRepeated? (first :: seen) rest).map
              (.duplicateName .arguments)) := by
        rw [firstRepeated?]
        split <;> rfl
      rw [hstep]
      refine .each_cons ?_ fun _ _ => (ih (first :: seen)).each_congr fun k p e => ?_
      · refine (Finds.check (c := first ∈ seen) (fun h => if_pos (by simpa using h))
          fun h => ⟨(), if_neg (by simpa using h)⟩).congr fun p e => ?_
        simp
      · simp only [List.getElem?_cons_succ, mem_take_succ_iff]

/-- Names of constants are looked at one by one, for a repetition before a clash. -/
theorem finds_firstClash? (arguments : List String) : ∀ (names seen : List String),
    Finds (Each fun k p e => ∃ name, names[k]? = some name
        ∧ ((p = [0] ∧ (name ∈ seen ∨ name ∈ names.take k) ∧ e = .duplicateName .constants name)
          ∨ (p = [1] ∧ name ∈ arguments ∧ e = .duplicateName .both name)))
      (refuse ((firstClash? arguments seen names).map fun found =>
        ScenarioError.duplicateName found.1 found.2)) := by
  intro names
  induction names with
  | nil => intro seen; exact .ok () fun p e ⟨k, q, _, name, h, _⟩ => by cases h
  | cons first rest ih =>
      intro seen
      have hstep : refuse ((firstClash? arguments seen (first :: rest)).map fun found =>
            ScenarioError.duplicateName found.1 found.2)
          = (if seen.contains first then .error (.duplicateName .constants first)
              else if arguments.contains first then .error (.duplicateName .both first) else .ok ())
            >>= fun _ => refuse ((firstClash? arguments (first :: seen) rest).map fun found =>
              ScenarioError.duplicateName found.1 found.2) := by
        rw [firstClash?]
        split
        · rfl
        · split <;> rfl
      have hname : Finds (fun p e =>
            p = [0] ∧ first ∈ seen ∧ e = .duplicateName .constants first
              ∨ p = [1] ∧ first ∈ arguments ∧ e = .duplicateName .both first)
          (if seen.contains first then .error (.duplicateName .constants first)
            else if arguments.contains first then .error (.duplicateName .both first)
            else .ok () : Except ScenarioError Unit) := by
        refine .check_two (fun h => ?_) (fun h h' => ?_) fun h h' => ⟨(), ?_⟩
        · rw [if_pos (by simpa using h)]
        · rw [if_neg (by simpa using h), if_pos (by simpa using h')]
        · rw [if_neg (by simpa using h), if_neg (by simpa using h')]
      rw [hstep]
      refine .each_cons (hname.congr fun p e => ?_) fun _ _ =>
        (ih (first :: seen)).each_congr fun k p e => ?_
      · simp
      · simp only [List.getElem?_cons_succ, mem_take_succ_iff]

/-- First the arguments are gone through, and then the constants. -/
theorem checkNames_eq (s : Scenario) : s.checkNames
    = refuse ((firstRepeated? [] s.argumentNames).map (.duplicateName .arguments)) >>= fun _ =>
      refuse ((firstClash? s.argumentNames [] s.constantNames).map fun found =>
        .duplicateName found.1 found.2) := by
  unfold checkNames argumentNames constantNames
  dsimp only
  cases firstRepeated? [] (s.arguments.map Prod.fst) with
  | some name => rfl
  | none =>
      cases firstClash? (s.arguments.map Prod.fst) [] (Keyed.keys s.constants) with
      | some found => rfl
      | none => rfl

/-! ### Waits -/

/-- A handle comes from elsewhere. -/
def Foreign (s : Scenario) (h : Handle) (e : ScenarioError) : Prop :=
  s.owns h = false ∧ e = .foreignOperation s.name h.index

/-- Handles are looked up one by one. -/
theorem finds_resolveAll (s : Scenario) (handles : List Handle) :
    Finds (Listed s.Foreign handles) (s.resolveAll handles) := by
  refine Finds.mapM_listed fun h _ => ?_
  refine Finds.check (fun hforeign => ?_) fun howned => ⟨h.index, resolve_eq_ok.mpr ⟨?_, rfl⟩⟩
  · rw [resolve, hforeign]
    rfl
  · simpa using howned

/-- A wait is gone through in three steps. -/
def waitSteps (s : Scenario) (i : Nat) (w : Wait) : Nat → Place → ScenarioError → Prop
  | 0 => Listed s.Foreign w.launched
  | 1 => Listed s.Foreign w.finished
  | 2 => fun p e => p = [] ∧ (∃ h ∈ w.references, s.owns h = true ∧ h.index = i) ∧ e = .selfWait i
  | _ => fun _ _ => False

theorem each_waitSteps_iff (s : Scenario) (i : Nat) (w : Wait) (p : Place) (e : ScenarioError) :
    Each (s.waitSteps i w) p e ↔ s.WaitDefect i w p e := by
  refine ⟨?_, ?_⟩
  · intro h
    obtain ⟨n, q, rfl, h⟩ := h
    match n, h with
    | 0, h =>
        obtain ⟨k, a, rfl, stands, foreign, rfl⟩ := h
        exact .launched stands foreign
    | 1, h =>
        obtain ⟨k, a, rfl, stands, foreign, rfl⟩ := h
        exact .finished stands foreign
    | 2, h =>
        obtain ⟨rfl, ⟨a, stands, owned, same⟩, rfl⟩ := h
        exact .itself stands owned same
    | n + 3, h => exact h.elim
  · intro h
    cases h with
    | launched stands foreign => exact ⟨0, _, rfl, _, _, rfl, stands, foreign, rfl⟩
    | finished stands foreign => exact ⟨1, _, rfl, _, _, rfl, stands, foreign, rfl⟩
    | itself stands owned same => exact ⟨2, _, rfl, rfl, ⟨_, stands, owned, same⟩, rfl⟩

theorem finds_buildWait (s : Scenario) (i : Nat) (w : Wait) :
    Finds (s.WaitDefect i w) (s.buildWait i w) := by
  refine Finds.congr ?_ (s.each_waitSteps_iff i w)
  refine .each_cons (finds_resolveAll s w.launched) fun launched hlaunched =>
    .each_cons (finds_resolveAll s w.finished) fun finished hfinished =>
      .each_only ?_ fun _ _ _ h => h
  obtain ⟨howned, rfl⟩ := resolveAll_eq_ok.mp hlaunched
  obtain ⟨howned', rfl⟩ := resolveAll_eq_ok.mp hfinished
  have hself : ((w.launched.map Handle.index).contains i
      || (w.finished.map Handle.index).contains i) = true
        ↔ ∃ h ∈ w.references, s.owns h = true ∧ h.index = i := by
    rw [Bool.or_eq_true, List.contains_iff_mem, List.contains_iff_mem, ← List.mem_append,
      ← List.map_append, List.mem_map]
    refine exists_congr fun h => and_congr_right fun hh => ?_
    rcases List.mem_append.mp hh with hh | hh
    · exact (and_iff_right (howned h hh)).symm
    · exact (and_iff_right (howned' h hh)).symm
  refine Finds.check (fun h => ?_) fun h => ⟨w.built, ?_⟩
  · rw [if_pos (hself.mpr h)]
    rfl
  · rw [if_neg fun hcontained => h (hself.mp hcontained)]
    rfl

/-- The waits of the operations from a position on. -/
theorem finds_buildWaits (s : Scenario) : ∀ (operations : List (Operation Scenario))
    (position : Nat), Finds (Each fun k p e => ∃ op, operations[k]? = some op
        ∧ s.WaitDefect (position + k) op.wait p e) (s.buildWaits position operations) := by
  intro operations
  induction operations with
  | nil => exact fun _ => .no_item []
  | cons op rest ih =>
      intro position
      rw [buildWaits]
      exact .item_cons (P := fun i (op : Operation Scenario) => s.WaitDefect i op.wait)
        (finds_buildWait s position op.wait) fun wait _ => .bind_pure (ih (position + 1)) _

/-! ### Cycles -/

theorem isWaitCycle_iff {s : Scenario}
    (hready : ∀ i op, s.operations[i]? = some op → s.WaitReady i op.wait) (cycle : List Nat) :
    s.IsWaitCycle cycle
      ↔ WaitGraph.IsCycle (s.waits.map Document.Wait.references) cycle := by
  have heq : WaitGraph.Waits (s.waits.map Document.Wait.references) = s.WaitsOn := by
    funext i j
    exact propext (waits_graph_iff hready i j)
  refine ⟨fun h => ⟨h.closed, ?_⟩, fun h => ⟨h.closed, ?_⟩⟩
  · rw [heq]
    exact h.waits
  · rw [← heq]
    exact h.waits

theorem finds_checkCycles {s : Scenario}
    (hready : ∀ i op, s.operations[i]? = some op → s.WaitReady i op.wait) :
    Finds (fun p e => p = [] ∧ ∃ cycle, s.IsWaitCycle cycle ∧ e = .waitCycle cycle)
      (checkCycles s.waits) := by
  unfold checkCycles
  cases hfound : WaitGraph.findCycle (s.waits.map Document.Wait.references) with
  | some cycle =>
      have hcycle := (isWaitCycle_iff hready cycle).mpr (WaitGraph.isCycle_of_findCycle hfound)
      exact .error ⟨rfl, cycle, hcycle, rfl⟩ fun q _ _ => Place.not_before_nil q
  | none =>
      refine .ok () fun p e h => ?_
      obtain ⟨-, cycle, hcycle, -⟩ := h
      exact ((isWaitCycle_iff hready cycle).mp hcycle).not_acyclic
        ((WaitGraph.findCycle_eq_none_iff _).mp hfound)

end Scenario

end Testbed

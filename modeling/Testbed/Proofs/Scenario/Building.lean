/-
The steps of building, one by one.

Each step of a build gets one lemma that says when it gives a result and what the
result is.  The waits of a document are the waits of the operations with the handles
replaced by their positions, so the graph that is searched for cycles is the relation
`WaitsOn` between the operations themselves.
-/
import Testbed.Scenario.Build
import Testbed.Proofs.Resolution
import Testbed.Proofs.WaitGraph
import Testbed.Proofs.Scenario.Change

namespace Testbed

open Outcome

/-- A wait with positions for handles. -/
def Wait.built (w : Wait) : Document.Wait :=
  ⟨w.delay.seconds, w.launched.map Handle.index, w.finished.map Handle.index⟩

theorem Wait.references_built (w : Wait) :
    w.built.references = w.references.map Handle.index := by
  rw [Wait.references, List.map_append]
  rfl

namespace Scenario

/-! ### Names -/

theorem firstRepeated?_eq_none_iff : ∀ (names seen : List String),
    firstRepeated? seen names = none ↔ names.Nodup ∧ ∀ name ∈ names, name ∉ seen := by
  intro names
  induction names with
  | nil => intro seen; simp [firstRepeated?]
  | cons name rest ih =>
      intro seen
      rw [firstRepeated?, List.nodup_cons, List.forall_mem_cons]
      by_cases hmem : name ∈ seen
      · rw [if_pos (by simpa using hmem)]
        simp [hmem]
      · rw [if_neg (by simpa using hmem), ih]
        simp only [List.mem_cons, not_or]
        refine ⟨?_, ?_⟩
        · intro h
          obtain ⟨hnodup, hall⟩ := h
          exact ⟨⟨fun h => (hall name h).1 rfl, hnodup⟩, hmem, fun n hn => (hall n hn).2⟩
        · intro h
          obtain ⟨⟨hname, hnodup⟩, -, hall⟩ := h
          exact ⟨hnodup, fun n hn => ⟨fun h => hname (h ▸ hn), hall n hn⟩⟩

theorem firstClash?_eq_none_iff (arguments : List String) : ∀ (names seen : List String),
    firstClash? arguments seen names = none
      ↔ (names.Nodup ∧ ∀ name ∈ names, name ∉ seen) ∧ ∀ name ∈ names, name ∉ arguments := by
  intro names
  induction names with
  | nil => intro seen; simp [firstClash?]
  | cons name rest ih =>
      intro seen
      rw [← firstRepeated?_eq_none_iff, firstClash?, firstRepeated?, List.forall_mem_cons]
      by_cases hmem : seen.contains name = true
      · rw [if_pos hmem, if_pos hmem]
        simp
      · rw [if_neg hmem, if_neg hmem, firstRepeated?_eq_none_iff]
        by_cases hargument : name ∈ arguments
        · rw [if_pos (by simpa using hargument)]
          simp [hargument]
        · rw [if_neg (by simpa using hargument), ih]
          simp [hargument]

/-- Names pass if none is declared twice, in one table or in both. -/
theorem checkNames_eq_ok (s : Scenario) :
    s.checkNames = .ok () ↔ (s.arguments.map Prod.fst ++ Keyed.keys s.constants).Nodup := by
  unfold checkNames
  dsimp only
  rw [List.nodup_append]
  cases hrepeated : firstRepeated? [] (s.arguments.map Prod.fst) with
  | some name =>
      have hno : ¬ (s.arguments.map Prod.fst).Nodup := fun hnodup => by
        rw [(firstRepeated?_eq_none_iff _ []).mpr ⟨hnodup, by simp⟩] at hrepeated
        cases hrepeated
      exact iff_of_false (by simp) fun h => hno h.1
  | none =>
      have harguments := ((firstRepeated?_eq_none_iff _ []).mp hrepeated).1
      have hclash := firstClash?_eq_none_iff (s.arguments.map Prod.fst) (Keyed.keys s.constants) []
      cases hfound : firstClash? (s.arguments.map Prod.fst) [] (Keyed.keys s.constants) with
      | some found =>
          refine iff_of_false (by simp) fun h => ?_
          rw [hclash.mpr ⟨⟨h.2.1, by simp⟩, fun name hc ha => h.2.2 name ha name hc rfl⟩] at hfound
          cases hfound
      | none =>
          obtain ⟨⟨hconstants, -⟩, hapart⟩ := hclash.mp hfound
          refine iff_of_true rfl ⟨harguments, hconstants, fun a ha b hb hab => ?_⟩
          exact hapart b hb (hab ▸ ha)

/-! ### Waits -/

theorem resolveAll_eq_ok {s : Scenario} {handles : List Handle} {positions : List Nat} :
    s.resolveAll handles = .ok positions
      ↔ (∀ h ∈ handles, s.owns h = true) ∧ handles.map Handle.index = positions := by
  unfold resolveAll
  induction handles generalizing positions with
  | nil =>
      rw [List.mapM_nil, pure_eq_ok]
      simp
  | cons h rest ih =>
      rw [List.mapM_cons, List.forall_mem_cons, List.map_cons]
      simp only [bind_eq_ok, pure_eq_ok, resolve_eq_ok, ih]
      refine ⟨?_, ?_⟩
      · intro h
        obtain ⟨position, ⟨howns, rfl⟩, others, ⟨hall, rfl⟩, rfl⟩ := h
        exact ⟨⟨howns, hall⟩, rfl⟩
      · intro h
        obtain ⟨⟨howns, hall⟩, rfl⟩ := h
        exact ⟨_, ⟨howns, rfl⟩, _, ⟨hall, rfl⟩, rfl⟩

/-- The wait of the operation at a position names operations of the scenario, and not that one. -/
def WaitReady (s : Scenario) (position : Nat) (w : Wait) : Prop :=
  ∀ h ∈ w.references, s.owns h = true ∧ h.index ≠ position

theorem buildWait_eq_ok {s : Scenario} {position : Nat} {w : Wait} {built : Document.Wait} :
    s.buildWait position w = .ok built ↔ s.WaitReady position w ∧ w.built = built := by
  unfold buildWait WaitReady
  simp only [bind_eq_ok, resolveAll_eq_ok, Wait.references, List.forall_mem_append]
  refine ⟨?_, ?_⟩
  · intro h
    obtain ⟨launched, ⟨hlaunched, rfl⟩, finished, ⟨hfinished, rfl⟩, h⟩ := h
    split at h
    · cases h
    · rename_i hself
      rw [Bool.or_eq_true, not_or, List.contains_iff_mem, List.contains_iff_mem] at hself
      refine ⟨⟨fun a ha => ⟨hlaunched a ha, ?_⟩, fun a ha => ⟨hfinished a ha, ?_⟩⟩,
        pure_eq_ok.mp h⟩
      · rintro rfl
        exact hself.1 (List.mem_map_of_mem ha)
      · rintro rfl
        exact hself.2 (List.mem_map_of_mem ha)
  · intro h
    obtain ⟨⟨hlaunched, hfinished⟩, rfl⟩ := h
    refine ⟨_, ⟨fun a ha => (hlaunched a ha).1, rfl⟩, _, ⟨fun a ha => (hfinished a ha).1, rfl⟩, ?_⟩
    have hself : ¬ ((w.launched.map Handle.index).contains position
        || (w.finished.map Handle.index).contains position) = true := by
      rw [Bool.or_eq_true, not_or, List.contains_iff_mem, List.contains_iff_mem]
      simp only [List.mem_map, not_exists, not_and]
      exact ⟨fun a ha => (hlaunched a ha).2, fun a ha => (hfinished a ha).2⟩
    rw [if_neg hself]
    rfl

theorem buildWaits_eq_ok {s : Scenario} : ∀ {operations : List (Operation Scenario)}
    {position : Nat} {waits : List Document.Wait}, s.buildWaits position operations = .ok waits
      ↔ (∀ i op, operations[i]? = some op → s.WaitReady (position + i) op.wait)
        ∧ operations.map (fun op => op.wait.built) = waits := by
  intro operations
  induction operations with
  | nil =>
      intro position waits
      rw [buildWaits, pure_eq_ok]
      simp
  | cons op rest ih =>
      intro position waits
      rw [buildWaits, List.map_cons]
      simp only [bind_eq_ok, pure_eq_ok, buildWait_eq_ok, ih]
      refine ⟨?_, ?_⟩
      · intro h
        obtain ⟨wait, ⟨hready, rfl⟩, others, ⟨hall, rfl⟩, rfl⟩ := h
        refine ⟨fun i op' hop' => ?_, rfl⟩
        cases i with
        | zero =>
            cases hop'
            exact hready
        | succ i =>
            have h := hall i op' hop'
            rwa [Nat.add_right_comm] at h
      · intro h
        obtain ⟨hall, rfl⟩ := h
        refine ⟨_, ⟨hall 0 op rfl, rfl⟩, _, ⟨fun i op' hop' => ?_, rfl⟩, rfl⟩
        have h := hall (i + 1) op' hop'
        rwa [Nat.add_right_comm]

/-! ### Cycles -/

theorem checkCycles_eq_ok (waits : List Document.Wait) :
    checkCycles waits = .ok ()
      ↔ WaitGraph.Acyclic (waits.map Document.Wait.references) := by
  rw [← WaitGraph.findCycle_eq_none_iff]
  unfold checkCycles
  cases WaitGraph.findCycle (waits.map Document.Wait.references) with
  | none => simp
  | some cycle => simp

/-- The operation at a position waits on the operation at another one. -/
def WaitsOn (s : Scenario) (i j : Nat) : Prop :=
  ∃ op, s.operations[i]? = some op ∧ ∃ h ∈ op.wait.references, h.index = j

/-- The waits of all operations, with positions for handles. -/
def waits (s : Scenario) : List Document.Wait := s.operations.map fun op => op.wait.built

theorem waits_graph_iff {s : Scenario}
    (hready : ∀ i op, s.operations[i]? = some op → s.WaitReady i op.wait) (i j : Nat) :
    WaitGraph.Waits (s.waits.map Document.Wait.references) i j ↔ s.WaitsOn i j := by
  unfold WaitGraph.Waits WaitsOn waits
  rw [List.getD_eq_getElem?_getD, List.getElem?_map, List.getElem?_map, List.length_map,
    List.length_map]
  cases hop : s.operations[i]? with
  | none => simp
  | some op =>
      simp only [Option.map_some, Option.getD_some, Wait.references_built, List.mem_map,
        Option.some.injEq, exists_eq_left']
      refine ⟨?_, ?_⟩
      · exact fun h => h.1
      · intro h
        obtain ⟨h, hmem, rfl⟩ := h
        exact ⟨⟨h, hmem, rfl⟩, lt_size_of_owns (hready i op hop h hmem).1⟩

theorem acyclic_waits_iff {s : Scenario}
    (hready : ∀ i op, s.operations[i]? = some op → s.WaitReady i op.wait) :
    WaitGraph.Acyclic (s.waits.map Document.Wait.references)
      ↔ ∀ i, ¬ Relation.TransGen s.WaitsOn i i := by
  have heq : WaitGraph.Waits (s.waits.map Document.Wait.references) = s.WaitsOn := by
    funext i j
    exact propext (waits_graph_iff hready i j)
  rw [WaitGraph.Acyclic, heq]

end Scenario

end Testbed

/-
Cycles of waits in a document.

The checks of a document look for a cycle among positions and report it by numbers.  The two
tell the same functions as long as no number is given twice, whatever numbers there are: each
number has one position, and a wait on a number that no function has, or on the function
itself, is left out of the graph.  So a cycle of positions is a cycle of functions that wait
on others, and the other way round, step by step.

Where the numbers are the positions and nothing is left out, the graph is the list of waits
itself.  It is what a build of a scenario with these waits searches, and so a document and a
scenario with the same waits are refused with the same cycle.
-/
import Testbed.Proofs.Validation
import Testbed.Proofs.WaitGraph.Verdict
import Testbed.Proofs.Scenario.FirstDefect

namespace Testbed

open Outcome

/-- The cycle that an error tells of. -/
def ValidationError.cycle? : ValidationError → Option (List Nat)
  | waitCycle cycle => some cycle
  | _ => none

namespace Document

/-- The cycles of waits that the checks report. -/
def reportedCycles (d : Document) : List (List Nat) :=
  d.validate.errors.filterMap ValidationError.cycle?

/-- The function with one number waits on another function, which has the other number. -/
def WaitsOnOther (d : Document) (a b : Nat) : Prop :=
  a ≠ b ∧ (∃ g ∈ d.functions, g.id = b) ∧ ∃ f ∈ d.functions, f.id = a ∧ b ∈ f.wait.references

/-- No function waits on itself or on a number that no function has. -/
def WaitsInside (d : Document) : Prop :=
  ∀ f ∈ d.functions, ∀ id ∈ f.wait.references, id ≠ f.id ∧ ∃ g ∈ d.functions, g.id = id

variable {d : Document}

/-! ### What is reported -/

theorem cycle?_of_mem_idErrors {e : ValidationError} : ∀ (functions : List Function)
    (position : Nat), e ∈ idErrors position functions → e.cycle? = none := by
  intro functions
  induction functions with
  | nil => intro position h; cases h
  | cons f rest ih =>
      intro position h
      rw [idErrors] at h
      rcases List.mem_append.mp h with h | h
      · split at h
        · cases h
        · cases List.mem_singleton.mp h
          rfl
      · exact ih _ h

theorem cycle?_of_mem_referenceErrors {e : ValidationError} (h : e ∈ d.referenceErrors) :
    e.cycle? = none := by
  obtain ⟨f, -, h⟩ := List.mem_flatMap.mp h
  rcases List.mem_append.mp h with h | h
  · rcases List.mem_append.mp h with h | h
    · obtain ⟨⟨field, id⟩, -, rfl⟩ := List.mem_map.mp h
      rfl
    · rw [selfWaitErrors] at h
      split at h
      · cases List.mem_singleton.mp h
        rfl
      · cases h
  · rw [targetErrors] at h
    split at h
    · cases h
    · obtain ⟨target, -, h⟩ := List.mem_filterMap.mp h
      split at h
      · split at h
        · cases h
        · cases h
          rfl
      · cases h

/-- Only the search for cycles reports cycles, and it reports the one that it finds. -/
theorem reportedCycles_eq (d : Document) :
    d.reportedCycles = (d.waitGraph.findCycle.map (List.map d.idAt)).toList := by
  have hids : (idErrors 0 d.functions).filterMap ValidationError.cycle? = [] :=
    List.filterMap_eq_nil_iff.mpr fun e => cycle?_of_mem_idErrors d.functions 0
  have hnames : d.nameErrors.filterMap ValidationError.cycle? = [] := by
    refine List.filterMap_eq_nil_iff.mpr fun e h => ?_
    obtain ⟨name, -, rfl⟩ := List.mem_map.mp h
    rfl
  have hreferences : d.referenceErrors.filterMap ValidationError.cycle? = [] :=
    List.filterMap_eq_nil_iff.mpr fun e => cycle?_of_mem_referenceErrors
  have htokens : d.tokenErrors.filterMap ValidationError.cycle? = [] := by
    refine List.filterMap_eq_nil_iff.mpr fun e h => ?_
    obtain ⟨f, -, h⟩ := List.mem_flatMap.mp h
    obtain ⟨name, -, rfl⟩ := List.mem_map.mp h
    rfl
  simp only [reportedCycles, validate, List.filterMap_append, hids, hnames, hreferences, htokens,
    List.nil_append, List.append_nil, cycleErrors]
  cases d.waitGraph.findCycle <;> rfl

/-! ### From positions to numbers -/

theorem idAt_eq {i : Nat} {f : Function} (hf : d.functions[i]? = some f) : d.idAt i = f.id := by
  rw [idAt, hf]

namespace Distinct

/-- A step between positions is a step between the numbers there. -/
theorem waitsOnOther (h : d.Distinct) {i j : Nat} (hw : d.waitGraph.Waits i j) :
    d.WaitsOnOther (d.idAt i) (d.idAt j) := by
  obtain ⟨⟨f, g, hf, hg, hmem⟩, hne⟩ := (h.waits_waitGraph_iff i j).mp hw
  rw [idAt_eq hf, idAt_eq hg]
  refine ⟨fun hid => hne (h.position_unique hf hg hid).symm, ?_, ?_⟩
  · exact ⟨g, List.mem_of_getElem? hg, rfl⟩
  · exact ⟨f, List.mem_of_getElem? hf, rfl, hmem⟩

/-- A step between numbers is a step between their positions. -/
theorem waits_of_waitsOnOther (h : d.Distinct) {a b : Nat} (hw : d.WaitsOnOther a b) :
    d.waitGraph.Waits ((d.functions.map Function.id).idxOf a)
      ((d.functions.map Function.id).idxOf b) := by
  have hposition : ∀ {f : Function}, f ∈ d.functions →
      d.functions[(d.functions.map Function.id).idxOf f.id]? = some f := by
    intro f hf
    obtain ⟨i, hi⟩ := List.mem_iff_getElem?.mp hf
    obtain ⟨hlt, rfl⟩ := List.getElem?_eq_some_iff.mp hi
    have hidx := List.Nodup.idxOf_getElem h i (by simpa using hlt)
    rw [List.getElem_map] at hidx
    rw [hidx, hi]
  obtain ⟨hne, ⟨g, hg, rfl⟩, f, hf, rfl, hmem⟩ := hw
  refine (h.waits_waitGraph_iff _ _).mpr ⟨⟨f, g, hposition hf, hposition hg, hmem⟩, ?_⟩
  intro heq
  have hsame := (hposition hg).symm.trans (heq ▸ hposition hf)
  rw [Option.some.inj hsame] at hne
  exact hne rfl

/-- Positions go round in a circle exactly if numbers do. -/
theorem acyclic_iff (h : d.Distinct) :
    d.waitGraph.Acyclic ↔ ∀ a, ¬ Relation.TransGen d.WaitsOnOther a a := by
  refine ⟨?_, ?_⟩
  · intro hno a ha
    exact hno _ (Relation.TransGen.lift (d.functions.map Function.id).idxOf
      (fun _ _ => h.waits_of_waitsOnOther) a a ha)
  · intro hno i hi
    exact hno _ (Relation.TransGen.lift d.idAt (fun _ _ => h.waitsOnOther) i i hi)

/-- A cycle of positions, told by numbers. -/
theorem of_isCycle (h : d.Distinct) {cycle : List Nat} (hcycle : d.waitGraph.IsCycle cycle) :
    (cycle.map d.idAt).head? = (cycle.map d.idAt).getLast?
      ∧ (∃ a ∈ cycle.map d.idAt, ∃ b ∈ cycle.map d.idAt, a ≠ b)
      ∧ ∀ k a b, (cycle.map d.idAt)[k]? = some a → (cycle.map d.idAt)[k + 1]? = some b →
        d.WaitsOnOther a b := by
  have hsteps : ∀ k a b, (cycle.map d.idAt)[k]? = some a →
      (cycle.map d.idAt)[k + 1]? = some b → d.WaitsOnOther a b := by
    intro k a b ha hb
    rw [List.getElem?_map, Option.map_eq_some_iff] at ha hb
    obtain ⟨i, hi, rfl⟩ := ha
    obtain ⟨j, hj, rfl⟩ := hb
    exact h.waitsOnOther (hcycle.waits_getElem? hi hj)
  refine ⟨by rw [List.head?_map, List.getLast?_map, hcycle.head?_eq_getLast?], ?_, hsteps⟩
  -- the first step already leads to another number
  have hlength : 2 ≤ (cycle.map d.idAt).length := by
    rw [List.length_map]
    exact hcycle.two_le_length
  have hfirst := List.getElem?_eq_getElem (show 0 < (cycle.map d.idAt).length by omega)
  have hsecond := List.getElem?_eq_getElem (show 1 < (cycle.map d.idAt).length by omega)
  exact ⟨_, List.mem_of_getElem? hfirst, _, List.mem_of_getElem? hsecond,
    (hsteps 0 _ _ hfirst hsecond).1⟩

end Distinct

/-! ### Numbers that are positions -/

namespace Numbered

theorem idAt_eq_self (h : d.Numbered) (i : Nat) : d.idAt i = i := by
  unfold idAt
  cases hf : d.functions[i]? with
  | none => rfl
  | some f => exact h i f hf

/-- Where nothing is left out, the graph of positions is the list of waits. -/
theorem waitGraph_eq (h : d.Numbered) (hinside : d.WaitsInside) :
    d.waitGraph = d.functions.map fun f => f.wait.references := by
  refine List.ext_getElem? fun i => ?_
  rw [waitGraph, List.getElem?_mapIdx, List.getElem?_map]
  cases hf : d.functions[i]? with
  | none => rfl
  | some f =>
      have hwait := hinside f (List.mem_of_getElem? hf)
      have hposition : ∀ id ∈ f.wait.references, d.positionOf? id = some id := by
        intro id hid
        obtain ⟨g, hg, rfl⟩ := (hwait id hid).2
        exact (h.distinct.positionOf?_eq_some_iff _ _).mpr ⟨g, h.getElem?_id hg, rfl⟩
      have hother : ∀ id ∈ f.wait.references, (id != i) = true := by
        intro id hid
        rw [← h i f hf]
        exact bne_iff_ne.mpr (hwait id hid).1
      rw [Option.map_some, Option.map_some, dependencies, List.filterMap_congr hposition,
        List.filterMap_some, List.filter_eq_self.mpr hother]

end Numbered

end Document

/-! ### The same waits in a scenario -/

namespace Scenario

/-- The operations of a scenario wait as the functions of a document do: their handles are those
of the scenario, and stand for the same numbers in the same order. -/
def WaitsAs (s : Scenario) (d : Document) : Prop :=
  List.Forall₂ (fun op f => s.resolveAll op.wait.launched = .ok f.wait.launched
    ∧ s.resolveAll op.wait.finished = .ok f.wait.finished) s.operations d.functions

variable {s : Scenario} {d : Document}

namespace WaitsAs

/-- The operation at a position and the function there have the same references. -/
theorem references (h : s.WaitsAs d) {i : Nat} {op : Operation Scenario}
    (hop : s.operations[i]? = some op) : ∃ f, d.functions[i]? = some f
      ∧ op.wait.references.map Handle.index = f.wait.references
      ∧ ∀ a ∈ op.wait.references, s.owns a = true := by
  obtain ⟨hi, rfl⟩ := List.getElem?_eq_some_iff.mp hop
  have hi' : i < d.functions.length := h.length_eq ▸ hi
  obtain ⟨hlaunched, hfinished⟩ := h.get hi hi'
  obtain ⟨howned, hlaunched⟩ := resolveAll_eq_ok.mp hlaunched
  obtain ⟨howned', hfinished⟩ := resolveAll_eq_ok.mp hfinished
  refine ⟨_, List.getElem?_eq_getElem hi', ?_, List.forall_mem_append.mpr ⟨howned, howned'⟩⟩
  rw [Wait.references, List.map_append]
  exact congrArg₂ (· ++ ·) hlaunched hfinished

theorem graph_eq (h : s.WaitsAs d) :
    s.waits.map Document.Wait.references = d.functions.map fun f => f.wait.references := by
  refine List.ext_getElem? fun i => ?_
  rw [waits, List.getElem?_map, List.getElem?_map, List.getElem?_map]
  cases hop : s.operations[i]? with
  | none =>
      have hle := List.getElem?_eq_none_iff.mp hop
      rw [h.length_eq] at hle
      rw [List.getElem?_eq_none hle]
      rfl
  | some op =>
      obtain ⟨f, hf, hreferences, -⟩ := h.references hop
      rw [hf, Option.map_some, Option.map_some, Option.map_some, Wait.references_built,
        hreferences]

/-- No wait stands in the way of the search for cycles. -/
theorem buildWaits_eq (h : s.WaitsAs d) (hnumbered : d.Numbered) (hinside : d.WaitsInside) :
    s.buildWaits 0 s.operations = .ok s.waits := by
  refine buildWaits_eq_ok.mpr ⟨fun i op hop a ha => ?_, rfl⟩
  obtain ⟨f, hf, hreferences, howned⟩ := h.references hop
  have hmem : a.index ∈ f.wait.references := hreferences ▸ List.mem_map_of_mem ha
  refine ⟨howned a ha, ?_⟩
  rw [Nat.zero_add, ← hnumbered i f hf]
  exact (hinside f (List.mem_of_getElem? hf) _ hmem).1

end WaitsAs

/-- What the actions of a scenario fail for is never a cycle. -/
theorem buildFunctions_ne_waitCycle (s : Scenario) (cycle : List Nat) :
    s.buildFunctions s.declarations 0 s.operations s.waits (s.operations.map embeddedBuild)
      ≠ .error (.waitCycle cycle) := by
  intro h
  obtain ⟨p, ⟨i, q, -, op, -, hdefect⟩, -⟩ :=
    (s.finds_buildFunctions (·.wait.built) s.operations 0).first _ h
  cases hdefect with
  | opening wrong => cases wrong
  | target _ wrong => cases wrong

/-- Once names and waits are in order, a build is refused for a cycle exactly if the search for
cycles comes to it. -/
theorem build_eq_waitCycle_iff (hnames : (s.argumentNames ++ s.constantNames).Nodup)
    (hwaits : s.buildWaits 0 s.operations = .ok s.waits) (cycle : List Nat) :
    s.build = .error (.waitCycle cycle)
      ↔ WaitGraph.findCycle (s.waits.map Document.Wait.references) = some cycle := by
  have hsteps : s.build = checkCycles s.waits >>= fun _ =>
      s.buildFunctions s.declarations 0 s.operations s.waits (s.operations.map embeddedBuild)
        >>= fun functions =>
          pure ⟨s.name, s.description, s.argumentTable, s.constantTable, functions⟩ := by
    rw [build_eq, assemble, (checkNames_eq_ok s).mpr hnames, hwaits]
    rfl
  rw [hsteps, checkCycles]
  cases WaitGraph.findCycle (s.waits.map Document.Wait.references) with
  | some found => simp [bind, Except.bind]
  | none =>
      refine iff_of_false (fun h => ?_) (by simp)
      rcases bind_eq_error.mp h with h | ⟨_, -, h⟩
      · cases h
      · rcases bind_eq_error.mp h with h | ⟨_, -, h⟩
        · exact s.buildFunctions_ne_waitCycle cycle h
        · cases h

end Scenario

namespace Document

/--
**The checks report one cycle of waits if there is one, and none otherwise.**

This asks for no more than that no two functions have the same number.  What is reported begins
and ends with the same number, has another one in it, and each function in it waits on the next.
Where the numbers are positions and nothing is left out, it is the cycle for which the build of a
scenario with these waits is refused.
-/
theorem reportedCycles_of_distinct (d : Document) (h : d.Distinct) :
    (d.reportedCycles ≠ [] ↔ ∃ a, Relation.TransGen d.WaitsOnOther a a)
      ∧ d.reportedCycles.length ≤ 1
      ∧ (∀ cycle ∈ d.reportedCycles, cycle.head? = cycle.getLast?
        ∧ (∃ a ∈ cycle, ∃ b ∈ cycle, a ≠ b)
        ∧ ∀ k a b, cycle[k]? = some a → cycle[k + 1]? = some b → d.WaitsOnOther a b)
      ∧ (d.Numbered → d.WaitsInside → ∀ s : Scenario, s.WaitsAs d →
        (s.argumentNames ++ s.constantNames).Nodup → ∀ cycle,
          cycle ∈ d.reportedCycles ↔ s.build = .error (.waitCycle cycle)) := by
  have hreported := d.reportedCycles_eq
  refine ⟨?_, ?_, ?_, ?_⟩
  · rw [← not_forall_not, ← h.acyclic_iff, ← WaitGraph.findCycle_eq_none_iff, hreported]
    simp
  · rw [hreported]
    cases d.waitGraph.findCycle <;> simp
  · intro cycle hcycle
    rw [hreported, Option.mem_toList, Option.map_eq_some_iff] at hcycle
    obtain ⟨positions, hpositions, rfl⟩ := hcycle
    exact h.of_isCycle (WaitGraph.isCycle_of_findCycle hpositions)
  · intro hnumbered hinside s hwaits hnames cycle
    have hsame : d.idAt = id := funext hnumbered.idAt_eq_self
    rw [Scenario.build_eq_waitCycle_iff hnames (hwaits.buildWaits_eq hnumbered hinside),
      hwaits.graph_eq, ← hnumbered.waitGraph_eq hinside, hreported, hsame]
    simp

/-- A reboot with a number and a wait. -/
def rebootAt (id : Nat) (launched finished : List Nat) : Function :=
  ⟨id, "#", .reboot (.string "agent"), ⟨.integer 0, launched, finished⟩⟩

/-- The numbers are out of order, the first function waits on itself too, and no function has the
number 99. -/
def crossed : Document :=
  ⟨"Crossed", "", [], [],
    [rebootAt 5 [3] [5], rebootAt 7 [3, 99] [], rebootAt 3 [] [40], rebootAt 40 [99] [7]]⟩

/-- The last two functions wait on each other. -/
def entangled : Document :=
  ⟨"Entangled", "", [], [], [rebootAt 0 [] [], rebootAt 1 [2] [], rebootAt 2 [0] [1]]⟩

/-- Operations that wait as the functions of `entangled` do. -/
def entangledOperations : Scenario :=
  ⟨4, [], "Entangled", "", [("agent", "")], [], [
    ⟨.reboot, none, none, .immediate, [], []⟩,
    ⟨.reboot, none, none, ⟨.zero, [⟨4, 2⟩], []⟩, [], []⟩,
    ⟨.reboot, none, none, ⟨.zero, [⟨4, 0⟩], [⟨4, 1⟩]⟩, [], []⟩]⟩

theorem crossed_reportedCycles :
    (crossed.Distinct ∧ crossed.reportedCycles = [[3, 40, 7, 3]]
        ∧ (∃ a, Relation.TransGen crossed.WaitsOnOther a a) ∧ crossed.WaitsOnOther 40 7)
      ∧ entangled.Distinct ∧ entangled.Numbered ∧ entangled.WaitsInside
      ∧ entangledOperations.WaitsAs entangled
      ∧ (entangledOperations.argumentNames ++ entangledOperations.constantNames).Nodup
      ∧ entangledOperations.build = .error (.waitCycle [1, 2, 1]) := by
  have hcrossed : crossed.Distinct := by unfold Distinct; decide
  have hreported : crossed.reportedCycles = [[3, 40, 7, 3]] := by
    rw [reportedCycles_eq]
    cbv
  have hnumbered : entangled.Numbered := numbered_iff.mp (by decide)
  have hinside : entangled.WaitsInside := by unfold WaitsInside; decide
  have hwaits : entangledOperations.WaitsAs entangled :=
    .cons ⟨rfl, rfl⟩ (.cons ⟨rfl, rfl⟩ (.cons ⟨rfl, rfl⟩ .nil))
  have hnames : (entangledOperations.argumentNames ++ entangledOperations.constantNames).Nodup := by
    decide
  have hmember : [1, 2, 1] ∈ entangled.reportedCycles := by
    have h : entangled.reportedCycles = [[1, 2, 1]] := by
      rw [reportedCycles_eq]
      cbv
    exact h ▸ List.mem_singleton_self _
  obtain ⟨hiff, -, hsteps, -⟩ := reportedCycles_of_distinct crossed hcrossed
  obtain ⟨-, -, -, hbuild⟩ := reportedCycles_of_distinct entangled hnumbered.distinct
  exact ⟨⟨hcrossed, hreported, hiff.mp (by simp [hreported]),
      (hsteps [3, 40, 7, 3] (by simp [hreported])).2.2 1 40 7 rfl rfl⟩,
    hnumbered.distinct, hnumbered, hinside, hwaits, hnames,
    (hbuild hnumbered hinside _ hwaits hnames _).mp hmember⟩

end Document

end Testbed

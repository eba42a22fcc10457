/-
What the answer of the search for a cycle is worth to somebody who does not trust it.

Either answer comes with something that can be looked over without searching again.  If
nothing is found, the operations can be numbered so that each has a larger number than all
that it waits on; going along the waits the numbers only go down, so no way comes back.  If
a cycle is found, it is a list that is closed, does not cross itself, and takes every step
along an entry of the operation it stands on.  Entries that lead to no operation count for
nothing in the first answer, and never show up in the second.
-/
import Testbed.Proofs.WaitGraph
import Mathlib.Data.Set.Function
import Mathlib.Order.Interval.Set.Defs

namespace Testbed.WaitGraph

variable {g : WaitGraph}

/-! ### Numberings -/

/-- Operations with numbers of their own, each larger than those of all it waits on. -/
structure Numbers (g : WaitGraph) (number : Nat → Nat) : Prop where
  each : Set.BijOn number (Set.Iio g.length) (Set.Iio g.length)
  above : ∀ i j, g.Waits i j → number j < number i

/-- The places in a list of all operations are numbers for them. -/
theorem bijOn_idxOf {order : List Nat} (h : order.Perm (List.range g.length)) :
    Set.BijOn order.idxOf (Set.Iio g.length) (Set.Iio g.length) := by
  have hmem : ∀ i, i ∈ order ↔ i < g.length := fun i => h.mem_iff.trans List.mem_range
  have hlength : order.length = g.length := h.length_eq.trans List.length_range
  have hnodup : order.Nodup := h.nodup_iff.mpr List.nodup_range
  refine ⟨?_, ?_, ?_⟩
  · intro i hi
    have hlt := List.idxOf_lt_length_of_mem ((hmem i).mpr hi)
    rwa [hlength] at hlt
  · intro i hi j _ hij
    exact (List.idxOf_inj ((hmem i).mpr hi)).mp hij
  · intro k hk
    have hlt : k < order.length := hlength ▸ hk
    exact ⟨order[k], (hmem _).mp (List.getElem_mem hlt), hnodup.idxOf_getElem k hlt⟩

/-- Without a cycle there is a numbering: the order in which the search is done with them. -/
theorem Acyclic.exists_numbers (h : g.Acyclic) : ∃ number, g.Numbers number := by
  obtain ⟨order, hperm, hafter⟩ := exists_order h
  refine ⟨order.idxOf, bijOn_idxOf hperm, fun i j hw => hafter i j ?_ hw⟩
  by_contra hi
  have hnone : g.getD i [] = [] := by simp [List.getElem?_eq_none (Nat.le_of_not_lt hi)]
  exact absurd (hnone ▸ hw.1) List.not_mem_nil

/-- Along the waits of a numbered graph the numbers go down, and a cycle would have to go up. -/
theorem Numbers.acyclic {number : Nat → Nat} (h : g.Numbers number) : g.Acyclic :=
  acyclic_of_decreasing number h.above

/--
**The search finds nothing exactly if the operations can be numbered in the order of their
waits, and it finds a cycle in every graph that has one.**

It makes no difference where the cycle lies, what was searched before, how often an entry is
repeated, or what entries there are that lead to no operation.
-/
theorem findCycle_none_iff_numbers (g : WaitGraph) :
    (g.findCycle = none ↔ ∃ number, g.Numbers number)
      ∧ ((∃ i, Relation.TransGen g.Waits i i) ↔ ∃ cycle, g.findCycle = some cycle) := by
  refine ⟨?_, ?_⟩
  · rw [findCycle_eq_none_iff]
    exact ⟨Acyclic.exists_numbers, fun ⟨_, h⟩ => h.acyclic⟩
  · rw [← Option.ne_none_iff_exists', ne_eq, findCycle_eq_none_iff, Acyclic, not_forall_not]

/-! ### Cycles -/

namespace IsCycle

variable {cycle : List Nat}

theorem two_le_length (h : g.IsCycle cycle) : 2 ≤ cycle.length := by
  obtain ⟨node, inner, rfl, -⟩ := h.closed
  simp

theorem head?_eq_getLast? (h : g.IsCycle cycle) : cycle.head? = cycle.getLast? := by
  obtain ⟨node, inner, rfl, -⟩ := h.closed
  rw [List.getLast?_concat]
  rfl

theorem nodup_dropLast (h : g.IsCycle cycle) : cycle.dropLast.Nodup := by
  obtain ⟨node, inner, rfl, hnodup⟩ := h.closed
  rwa [List.dropLast_concat]

/-- Each step is taken along an entry of the operation it starts from, to an operation. -/
theorem waits_getElem? (h : g.IsCycle cycle) {k i j : Nat} (hi : cycle[k]? = some i)
    (hj : cycle[k + 1]? = some j) : g.Waits i j := by
  obtain ⟨hk, rfl⟩ := List.getElem?_eq_some_iff.mp hj
  obtain ⟨_, rfl⟩ := List.getElem?_eq_some_iff.mp hi
  exact List.isChain_iff_getElem.mp h.waits k hk

/-- All of a cycle are operations of the graph: the first one is the last one too, and some step
leads to each of the others. -/
theorem lt_length (h : g.IsCycle cycle) : ∀ i ∈ cycle, i < g.length := by
  have hlater : ∀ k i, cycle[k + 1]? = some i → i < g.length := by
    intro k i hi
    have hk : k < cycle.length := Nat.lt_of_succ_lt (List.getElem?_eq_some_iff.mp hi).1
    exact (h.waits_getElem? (List.getElem?_eq_getElem hk) hi).2
  intro i hi
  obtain ⟨k, hk⟩ := List.mem_iff_getElem?.mp hi
  cases k with
  | zero =>
      have htwo := h.two_le_length
      rw [← List.head?_eq_getElem?, h.head?_eq_getLast?, List.getLast?_eq_getElem?,
        show cycle.length - 1 = cycle.length - 2 + 1 by omega] at hk
      exact hlater _ i hk
  | succ k => exact hlater k i hk

end IsCycle

/--
**What the search reports is a simple cycle, closed on itself.**

It has two entries at least, the first one is repeated at the end and nothing else is, all of
them are operations, and each is followed by one of those in its own list.
-/
theorem findCycle_some_simple {cycle : List Nat} (h : g.findCycle = some cycle) :
    2 ≤ cycle.length ∧ cycle.head? = cycle.getLast? ∧ cycle.dropLast.Nodup
      ∧ (∀ i ∈ cycle, i < g.length)
      ∧ ∀ k i j, cycle[k]? = some i → cycle[k + 1]? = some j →
        ∃ entries, g[i]? = some entries ∧ j ∈ entries := by
  have hcycle := isCycle_of_findCycle h
  refine ⟨hcycle.two_le_length, hcycle.head?_eq_getLast?, hcycle.nodup_dropLast,
    hcycle.lt_length, fun k i j hi hj => ?_⟩
  have hlt : i < g.length := hcycle.lt_length i (List.mem_of_getElem? hi)
  have hentry := (hcycle.waits_getElem? hi hj).1
  rw [List.getD_eq_getElem?_getD, List.getElem?_eq_getElem hlt, Option.getD_some] at hentry
  exact ⟨g[i], List.getElem?_eq_getElem hlt, hentry⟩

/-- The walk from 1 passes what is done and what is not there; it meets itself at 2, and what
led to 2 is left out. -/
theorem findCycle_pastTheStart :
    findCycle [[], [0, 0, 9, 2], [3, 1], [8, 2]] = some [2, 3, 2]
      ∧ [2, 3, 2].dropLast.Nodup ∧ [2, 3, 2].head? = [2, 3, 2].getLast? := by
  have h : findCycle [[], [0, 0, 9, 2], [3, 1], [8, 2]] = some [2, 3, 2] := by cbv
  obtain ⟨-, hclosed, hnodup, -⟩ := findCycle_some_simple h
  exact ⟨h, hnodup, hclosed⟩

end Testbed.WaitGraph

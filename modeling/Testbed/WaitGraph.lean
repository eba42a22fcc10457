/-
Looking for a cycle of waits.

Operation `i` waits on the operations listed at position `i`.  The search walks along
those lists depth first, and it stops at the first entry that leads back to an
operation it is still walking from: the walk from there on is a cycle.  Every round
either takes an operation off the walk, passes one entry of a list, or enters an
operation that no walk has entered before; so the pair of operations not yet entered
and entries still ahead of the walk goes down, and the search ends.
-/

namespace Testbed

/-- Which operations each operation waits on, by position. -/
abbrev WaitGraph := List (List Nat)

namespace WaitGraph

/-- How far the search has got with an operation. -/
inductive Mark where
  | unvisited
  | inProgress
  | done
deriving DecidableEq

/-- An operation on the walk, and the position in its list where the walk goes on. -/
structure Frame where
  node : Nat
  next : Nat
deriving DecidableEq

/-- The state of the search; the innermost frame comes first. -/
structure Walk where
  marks : List Mark
  stack : List Frame

/-- The operation that a frame leads to next. -/
def ahead? (g : WaitGraph) (f : Frame) : Option Nat := (g.getD f.node [])[f.next]?

/-- How many entries a frame still has ahead. -/
def entriesLeft (g : WaitGraph) (f : Frame) : Nat := (g.getD f.node []).length - f.next

/-- How many operations no walk has entered. -/
def Walk.fresh (w : Walk) : Nat := w.marks.countP (· == .unvisited)

/-- How many rounds the frames of a walk still need by themselves. -/
def Walk.pending (g : WaitGraph) (w : Walk) : Nat :=
  w.stack.foldr (fun f rest => g.entriesLeft f + 1 + rest) 0

/-- The operations on a walk, outermost first. -/
def Walk.path (w : Walk) : List Nat := (w.stack.map Frame.node).reverse

/-- The part of a walk that leads from a node back to it. -/
def Walk.cycleAt (w : Walk) (node : Nat) : List Nat := w.path.dropWhile (· != node) ++ [node]

/-- What one round of the search comes to. -/
inductive Round where
  /-- The walk has come to its end. -/
  | ended
  /-- The walk has met itself. -/
  | met (cycle : List Nat)
  | goOn (walk : Walk)

/-- One round of the search: it takes an operation off the walk, passes an entry of its list, or
enters the next operation. -/
def round (g : WaitGraph) (w : Walk) : Round :=
  match w.stack with
  | [] => .ended
  | f :: outer =>
    match g.ahead? f with
    | none => .goOn ⟨w.marks.set f.node .done, outer⟩
    | some d =>
      let passed := { f with next := f.next + 1 } :: outer
      match w.marks[d]? with
      | some .unvisited => .goOn ⟨w.marks.set d .inProgress, ⟨d, 0⟩ :: passed⟩
      | some .inProgress => .met (w.cycleAt d)
      | some .done => .goOn { w with stack := passed }
      | none => .goOn { w with stack := passed }

theorem countP_set_lt {marks : List Mark} {d : Nat} (h : marks[d]? = some .unvisited) :
    (marks.set d .inProgress).countP (· == .unvisited) < marks.countP (· == .unvisited) := by
  induction marks generalizing d with
  | nil => simp at h
  | cons m rest ih =>
    cases d with
    | zero => simp_all
    | succ d =>
      have := ih (by simpa using h)
      simp only [List.set_cons_succ, List.countP_cons]
      omega

theorem countP_set_done_le (marks : List Mark) (d : Nat) :
    (marks.set d .done).countP (· == .unvisited) ≤ marks.countP (· == .unvisited) := by
  induction marks generalizing d with
  | nil => simp
  | cons m rest ih =>
    cases d with
    | zero => simp [List.countP_cons]
    | succ d =>
      have := ih d
      simp only [List.set_cons_succ, List.countP_cons]
      omega

/-- Every round that goes on enters a new operation, or leaves no more operations
unentered and less to do for the frames. -/
theorem round_decreases {g : WaitGraph} {w next : Walk} (h : g.round w = .goOn next) :
    Prod.Lex (· < ·) (· < ·) (next.fresh, next.pending g) (w.fresh, w.pending g) := by
  obtain ⟨marks, stack⟩ := w
  cases stack with
  | nil => simp [round] at h
  | cons f outer =>
    have passes : g.ahead? f ≠ none →
        g.entriesLeft { f with next := f.next + 1 } < g.entriesLeft f := by
      intro hd
      simp only [ahead?, entriesLeft, ne_eq, List.getElem?_eq_none_iff] at hd ⊢
      omega
    simp only [round] at h
    split at h
    · cases h
      rcases Nat.lt_or_eq_of_le (countP_set_done_le marks f.node) with hlt | heq
      · exact Prod.Lex.left _ _ hlt
      · simp only [Walk.fresh, Walk.pending, heq, List.foldr_cons]
        exact Prod.Lex.right _ (by omega)
    · rename_i d hd
      have hp := passes (by simp [hd])
      split at h
      · rename_i hm
        cases h
        exact Prod.Lex.left _ _ (countP_set_lt hm)
      · cases h
      · cases h
        simp only [Walk.fresh, Walk.pending, List.foldr_cons]
        exact Prod.Lex.right _ (by omega)
      · cases h
        simp only [Walk.fresh, Walk.pending, List.foldr_cons]
        exact Prod.Lex.right _ (by omega)

/-- Searches on until the walk ends or meets itself: a cycle, or the marks that are left
behind. -/
def search (g : WaitGraph) (w : Walk) : Except (List Nat) (List Mark) :=
  match _h : g.round w with
  | .ended => .ok w.marks
  | .met cycle => .error cycle
  | .goOn next => search g next
termination_by (w.fresh, w.pending g)
decreasing_by exact round_decreases _h

/-- Searches from an operation, unless an earlier search has come to it. -/
def searchFrom (g : WaitGraph) (marks : List Mark) (start : Nat) : Except (List Nat) (List Mark) :=
  match marks[start]? with
  | some .unvisited => g.search ⟨marks.set start .inProgress, [⟨start, 0⟩]⟩
  | _ => .ok marks

/-- The first cycle that the search meets, with its first operation repeated at the end. -/
def findCycle (g : WaitGraph) : Option (List Nat) :=
  match (List.range g.length).foldlM (searchFrom g) (List.replicate g.length .unvisited) with
  | .error cycle => some cycle
  | .ok _ => none

end WaitGraph

end Testbed

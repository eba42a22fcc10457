/-
The search for a cycle of waits finds one exactly if there is one.

The search knows two things while it runs.  The operations it has marked as done can
be listed so that whatever one of them waits on comes after it in the list, the last
one done first; nothing on a cycle can be in such a list.  And the frames of the walk
are linked: each of them waits on the operation of the frame inside it, and every
entry it has passed is done, but for the one that led inside.

From the first, a search that finds nothing leaves behind an order in which all
operations can run.  From the second, an entry that leads back to the walk closes a
cycle.  Both facts are invariants of one round, and `search` is rounds until the end.
-/
import Testbed.WaitGraph
import Mathlib.Logic.Relation
import Mathlib.Data.List.Chain
import Mathlib.Data.List.Permutation

namespace Testbed.WaitGraph

/-- An operation waits on another operation of the graph. -/
def Waits (g : WaitGraph) (i j : Nat) : Prop := j ∈ g.getD i [] ∧ j < g.length

/-- No way along the waits leads back to where it began. -/
def Acyclic (g : WaitGraph) : Prop := ∀ i, ¬ Relation.TransGen g.Waits i i

/-- A number that goes down along every wait never comes back to what it was. -/
theorem acyclic_of_decreasing {g : WaitGraph} (number : Nat → Nat)
    (h : ∀ i j, g.Waits i j → number j < number i) : g.Acyclic := by
  have hlt : ∀ {i j}, Relation.TransGen g.Waits i j → number j < number i := by
    intro i j hij
    induction hij with
    | single hw => exact h _ _ hw
    | tail _ hw ih => exact Nat.lt_trans (h _ _ hw) ih
  exact fun i hi => Nat.lt_irrefl _ (hlt hi)

/-- Nodes that wait on earlier ones only never wait in a circle. -/
theorem acyclic_of_lt {g : WaitGraph} (h : ∀ i j, g.Waits i j → j < i) : g.Acyclic :=
  acyclic_of_decreasing id h

/-- A way along the waits that comes back to its first operation, and to no other one. -/
structure IsCycle (g : WaitGraph) (cycle : List Nat) : Prop where
  closed : ∃ node inner, cycle = node :: inner ++ [node] ∧ (node :: inner).Nodup
  waits : cycle.IsChain g.Waits

/-! ### Operations in the order in which they are done -/

/-- Operations that were done one after the other, the last one first: each is done after all
that it waits on. -/
inductive Settled (g : WaitGraph) : List Nat → Prop
  | nil : Settled g []
  | cons {i : Nat} {done : List Nat} (lt : i < g.length) (new : i ∉ done)
      (after : ∀ j, g.Waits i j → j ∈ done) (rest : Settled g done) : Settled g (i :: done)

namespace Settled

variable {g : WaitGraph} {done : List Nat}

theorem nodup (h : Settled g done) : done.Nodup := by
  induction h with
  | nil => exact List.nodup_nil
  | cons _ new _ _ ih => exact List.nodup_cons.mpr ⟨new, ih⟩

theorem lt_length (h : Settled g done) : ∀ i ∈ done, i < g.length := by
  induction h with
  | nil => intro i hi; simp at hi
  | cons lt _ _ _ ih =>
      intro i hi
      rcases List.mem_cons.mp hi with rfl | hi
      · exact lt
      · exact ih i hi

/-- What a done operation waits on is done. -/
theorem waits_mem (h : Settled g done) {i j : Nat} (hi : i ∈ done) (hw : g.Waits i j) :
    j ∈ done := by
  induction h with
  | nil => simp at hi
  | cons _ _ after _ ih =>
      rcases List.mem_cons.mp hi with rfl | hi
      · exact List.mem_cons_of_mem _ (after j hw)
      · exact List.mem_cons_of_mem _ (ih hi)

/-- So is everything further along the waits. -/
theorem reaches_mem (h : Settled g done) {i j : Nat} (hi : i ∈ done)
    (hw : Relation.TransGen g.Waits i j) : j ∈ done := by
  induction hw with
  | single hw => exact h.waits_mem hi hw
  | tail _ hw ih => exact h.waits_mem ih hw

/-- Nothing that is done lies on a cycle. -/
theorem not_cyclic (h : Settled g done) :
    ∀ i ∈ done, ¬ Relation.TransGen g.Waits i i := by
  induction h with
  | nil => intro i hi; simp at hi
  | cons _ new after rest ih =>
      intro i hi hw
      rcases List.mem_cons.mp hi with rfl | hi
      · obtain ⟨j, hij, hji⟩ := Relation.TransGen.head'_iff.mp hw
        rcases Relation.reflTransGen_iff_eq_or_transGen.mp hji with rfl | hji
        · exact new (after i hij)
        · exact new (rest.reaches_mem (after j hij) hji)
      · exact ih i hi hw

/-- In the order in which they are done, operations come after all that they wait on. -/
theorem idxOf_lt (h : Settled g done) {i j : Nat} (hi : i ∈ done) (hw : g.Waits i j) :
    done.reverse.idxOf j < done.reverse.idxOf i := by
  induction h with
  | nil => simp at hi
  | @cons k done _ new after rest ih =>
      rw [List.reverse_cons]
      have hj : j ∈ done := by
        rcases List.mem_cons.mp hi with rfl | hi
        · exact after j hw
        · exact rest.waits_mem hi hw
      rw [List.idxOf_append_of_mem (List.mem_reverse.mpr hj)]
      rcases List.mem_cons.mp hi with rfl | hi
      · rw [List.idxOf_append_of_notMem (by simpa using new)]
        exact Nat.lt_of_lt_of_le (List.idxOf_lt_length_of_mem (List.mem_reverse.mpr hj))
          (Nat.le_add_right _ _)
      · rw [List.idxOf_append_of_mem (List.mem_reverse.mpr hi)]
        exact ih hi

/-- All operations that wait at all are done if all of the graph are. -/
theorem acyclic (h : Settled g done) (hall : ∀ i < g.length, i ∈ done) : g.Acyclic := by
  intro i hw
  obtain ⟨_, -, hlast⟩ := Relation.TransGen.tail'_iff.mp hw
  exact h.not_cyclic i (hall i hlast.2) hw

theorem perm_range (h : Settled g done) (hall : ∀ i < g.length, i ∈ done) :
    done.Perm (List.range g.length) := by
  refine (List.perm_ext_iff_of_nodup h.nodup List.nodup_range).mpr fun i => ?_
  rw [List.mem_range]
  exact ⟨h.lt_length i, hall i⟩

end Settled

/-! ### What the search knows

`inner` is the operation that the frame in question leads to: that of the frame inside it, or
none for the innermost frame.
-/

/-- Every entry that a frame has passed leads to something done, but for the one that led to
`inner`. -/
def Passed (g : WaitGraph) (done : List Nat) (inner : Option Nat) (f : Frame) : Prop :=
  ∀ k d, k < f.next → (g.getD f.node [])[k]? = some d → d < g.length → d ∈ done ∨ inner = some d

/-- Every frame waits on the operation of the frame inside it, and has passed all before. -/
def Linked (g : WaitGraph) (done : List Nat) : Option Nat → List Frame → Prop
  | _, [] => True
  | inner, f :: outer =>
    (∀ d, inner = some d → g.Waits f.node d) ∧ g.Passed done inner f
      ∧ Linked g done (some f.node) outer

/-- What the search knows while it runs: `done` holds the operations marked as done, the last
one first. -/
structure Walk.Sound (g : WaitGraph) (done : List Nat) (w : Walk) : Prop where
  size : w.marks.length = g.length
  settled : Settled g done
  marked : ∀ i, w.marks[i]? = some .done ↔ i ∈ done
  onWalk : ∀ i, w.marks[i]? = some .inProgress ↔ i ∈ w.stack.map Frame.node
  distinct : (w.stack.map Frame.node).Nodup
  linked : g.Linked done none w.stack

variable {g : WaitGraph} {done : List Nat}

theorem Passed.mono {more : List Nat} {inner : Option Nat} {f : Frame}
    (h : g.Passed done inner f) (hsub : ∀ i ∈ done, i ∈ more) : g.Passed more inner f := by
  intro k d hk hd hlt
  exact (h k d hk hd hlt).imp (hsub d) id

/-- Passing one more entry, which leads to something done, to no operation or to `inner`. -/
theorem Passed.next {inner : Option Nat} {f : Frame} {e : Nat}
    (h : g.Passed done none f) (he : g.ahead? f = some e)
    (hcase : e < g.length → e ∈ done ∨ inner = some e) :
    g.Passed done inner { f with next := f.next + 1 } := by
  intro k d hk hd hlt
  rcases Nat.lt_or_ge k f.next with hkf | hkf
  · rcases h k d hkf hd hlt with hdone | hnone
    · exact Or.inl hdone
    · exact absurd hnone (by simp)
  · have hke : k = f.next := by
      have : k < f.next + 1 := hk
      omega
    rw [hke] at hd
    have hed : d = e := Option.some.inj (hd.symm.trans he)
    rw [hed] at hlt ⊢
    exact hcase hlt

theorem Linked.mono {more : List Nat} (hsub : ∀ i ∈ done, i ∈ more) :
    ∀ (stack : List Frame) (inner : Option Nat),
      g.Linked done inner stack → g.Linked more inner stack := by
  intro stack
  induction stack with
  | nil => intro inner _; trivial
  | cons f outer ih =>
      intro inner h
      exact ⟨h.1, h.2.1.mono hsub, ih _ h.2.2⟩

/-- Once the operation inside is done, the walk goes on as if nothing were inside. -/
theorem Linked.settle {stack : List Frame} {i : Nat}
    (h : g.Linked (i :: done) (some i) stack) : g.Linked (i :: done) none stack := by
  cases stack with
  | nil => trivial
  | cons f outer =>
      refine ⟨by intro d hd; simp at hd, ?_, h.2.2⟩
      intro k d hk hd hlt
      rcases h.2.1 k d hk hd hlt with hdone | hinner
      · exact Or.inl hdone
      · exact Or.inl (by simp [Option.some.inj hinner])

/-- From the inside out, each operation of a walk waits on the one before it. -/
theorem Linked.chain : ∀ (stack : List Frame) (inner : Option Nat), g.Linked done inner stack →
    (stack.map Frame.node).IsChain fun a b => g.Waits b a := by
  intro stack
  induction stack with
  | nil => intro inner _; exact List.isChain_nil
  | cons f outer ih =>
      intro inner h
      rw [List.map_cons]
      refine List.isChain_cons.mpr ⟨?_, ih _ h.2.2⟩
      intro b hb
      cases outer with
      | nil => simp at hb
      | cons f' rest =>
          simp only [List.map_cons, List.head?_cons, Option.mem_def, Option.some.injEq] at hb
          rw [← hb]
          exact h.2.2.1 f.node rfl

theorem getElem?_set_mark {marks : List Mark} {d : Nat} (hd : d < marks.length) (m : Mark)
    (i : Nat) : (marks.set d m)[i]? = if i = d then some m else marks[i]? := by
  rw [List.getElem?_set]
  by_cases hi : d = i
  · simp [hi ▸ hd, hi]
  · simp [hi, Ne.symm hi]

/-- What is cut out of a walk at one of its operations begins where that operation is. -/
theorem Walk.cycleAt_of_mem {w : Walk} {d : Nat} (hmem : d ∈ w.path) : ∃ before inner,
    w.path = before ++ d :: inner ∧ d ∉ before ∧ w.cycleAt d = d :: inner ++ [d] := by
  obtain ⟨before, inner, hsplit, hbefore⟩ := List.eq_append_cons_of_mem hmem
  refine ⟨before, inner, hsplit, hbefore, ?_⟩
  rw [cycleAt, hsplit, List.dropWhile_append_of_pos]
  · simp
  · intro i hi
    simpa using fun heq : i = d => hbefore (heq ▸ hi)

namespace Walk.Sound

variable {w : Walk}

/-- The search before its first walk. -/
theorem start (g : WaitGraph) :
    Walk.Sound g [] ⟨List.replicate g.length .unvisited, []⟩ := by
  refine ⟨by simp, .nil, ?_, ?_, List.nodup_nil, trivial⟩
  · intro i
    simp only [List.getElem?_replicate, List.not_mem_nil, iff_false]
    split <;> simp
  · intro i
    simp only [List.getElem?_replicate, List.map_nil, List.not_mem_nil, iff_false]
    split <;> simp

/-- From the outside in, each operation of a walk waits on the next one. -/
theorem path_chain (h : Walk.Sound g done w) : w.path.IsChain g.Waits := by
  rw [Walk.path, List.isChain_reverse]
  exact Linked.chain w.stack none h.linked

theorem path_nodup (h : Walk.Sound g done w) : w.path.Nodup :=
  List.nodup_reverse.mpr h.distinct

/-! ### One round keeps what the search knows -/

/-- Leaving an operation all of whose entries have been passed. -/
theorem leave {marks : List Mark} {f : Frame} {outer : List Frame}
    (h : Walk.Sound g done ⟨marks, f :: outer⟩) (hend : g.ahead? f = none) :
    Walk.Sound g (f.node :: done) ⟨marks.set f.node .done, outer⟩ := by
  obtain ⟨hsize, hsettled, hmarked, honWalk, hdistinct, hlinked⟩ := h
  have hin : marks[f.node]? = some .inProgress := (honWalk f.node).mpr (by simp)
  have hlt : f.node < marks.length := by
    by_contra hc
    rw [List.getElem?_eq_none (Nat.le_of_not_lt hc)] at hin
    simp at hin
  have hnot : f.node ∉ outer.map Frame.node := (List.nodup_cons.mp hdistinct).1
  refine ⟨by simpa using hsize, ?_, ?_, ?_, (List.nodup_cons.mp hdistinct).2, ?_⟩
  · refine .cons (hsize ▸ hlt) ?_ ?_ hsettled
    · intro hc
      have hdone := (hmarked f.node).mpr hc
      rw [hin] at hdone
      simp at hdone
    · -- the frame has passed every entry, and nothing is inside it
      intro j hj
      obtain ⟨k, hk, hkj⟩ := List.getElem_of_mem hj.1
      have hlen : (g.getD f.node []).length ≤ f.next := List.getElem?_eq_none_iff.mp hend
      rcases hlinked.2.1 k j (by omega) (by rw [List.getElem?_eq_getElem hk, hkj]) hj.2 with hd | hn
      · exact hd
      · simp at hn
  · intro i
    rw [getElem?_set_mark hlt, List.mem_cons]
    by_cases hi : i = f.node
    · simp [hi]
    · rw [if_neg hi, hmarked i]
      simp [hi]
  · intro i
    rw [getElem?_set_mark hlt]
    by_cases hi : i = f.node
    · simp [hi, hnot]
    · rw [if_neg hi, honWalk i, List.map_cons, List.mem_cons]
      simp [hi]
  · exact Linked.settle (Linked.mono (fun i hi => List.mem_cons_of_mem _ hi) outer _ hlinked.2.2)

/-- Passing an entry that leads to something done or to no operation. -/
theorem pass {marks : List Mark} {f : Frame} {outer : List Frame} {d : Nat}
    (h : Walk.Sound g done ⟨marks, f :: outer⟩) (hd : g.ahead? f = some d)
    (hm : marks[d]? = some .done ∨ marks[d]? = none) :
    Walk.Sound g done ⟨marks, { f with next := f.next + 1 } :: outer⟩ := by
  obtain ⟨hsize, hsettled, hmarked, honWalk, hdistinct, hlinked⟩ := h
  refine ⟨hsize, hsettled, hmarked, honWalk, hdistinct, ?_, ?_, hlinked.2.2⟩
  · intro e he
    simp at he
  · refine hlinked.2.1.next hd fun hlt => ?_
    rcases hm with hdone | hnone
    · exact Or.inl ((hmarked d).mp hdone)
    · rw [List.getElem?_eq_none_iff] at hnone
      have : marks.length = g.length := hsize
      omega

/-- Entering an operation that no walk has entered before. -/
theorem enter {marks : List Mark} {f : Frame} {outer : List Frame} {d : Nat}
    (h : Walk.Sound g done ⟨marks, f :: outer⟩) (hd : g.ahead? f = some d)
    (hm : marks[d]? = some .unvisited) :
    Walk.Sound g done
      ⟨marks.set d .inProgress, ⟨d, 0⟩ :: { f with next := f.next + 1 } :: outer⟩ := by
  obtain ⟨hsize, hsettled, hmarked, honWalk, hdistinct, hlinked⟩ := h
  have hlt : d < marks.length := (List.getElem?_eq_some_iff.mp hm).1
  have hnew : d ∉ (f :: outer).map Frame.node := by
    intro hc
    have hin := (honWalk d).mpr hc
    rw [hm] at hin
    simp at hin
  have hmem : d ∈ g.getD f.node [] := List.mem_of_getElem? hd
  refine ⟨by simpa using hsize, hsettled, ?_, ?_, List.nodup_cons.mpr ⟨hnew, hdistinct⟩, ?_⟩
  · intro i
    rw [getElem?_set_mark hlt]
    by_cases hi : i = d
    · rw [if_pos hi, ← hmarked i, hi, hm]
      simp
    · rw [if_neg hi, hmarked i]
  · intro i
    rw [getElem?_set_mark hlt, List.map_cons, List.mem_cons]
    by_cases hi : i = d
    · simp [hi]
    · rw [if_neg hi, honWalk i]
      simp [hi]
  · refine ⟨by intro e he; simp at he, ?_, ?_, ?_, hlinked.2.2⟩
    · intro k e hk
      exact absurd hk (Nat.not_lt_zero k)
    · intro e he
      rw [← Option.some.inj he]
      exact ⟨hmem, hsize ▸ hlt⟩
    · exact hlinked.2.1.next hd fun _ => Or.inr rfl

/-- Meeting an operation of the walk itself: the walk from there on is a cycle. -/
theorem meet {marks : List Mark} {f : Frame} {outer : List Frame} {d : Nat}
    (h : Walk.Sound g done ⟨marks, f :: outer⟩) (hd : g.ahead? f = some d)
    (hm : marks[d]? = some .inProgress) :
    g.IsCycle (Walk.cycleAt ⟨marks, f :: outer⟩ d) := by
  set w : Walk := ⟨marks, f :: outer⟩ with hw
  have hlast : g.Waits f.node d :=
    ⟨List.mem_of_getElem? hd, h.size ▸ (List.getElem?_eq_some_iff.mp hm).1⟩
  have hmem : d ∈ w.path := List.mem_reverse.mpr ((h.onWalk d).mp hm)
  obtain ⟨before, inner, hsplit, -, hcycle⟩ := cycleAt_of_mem hmem
  have hsuffix : (d :: inner) <:+ w.path := ⟨before, hsplit.symm⟩
  refine ⟨⟨d, inner, hcycle, h.path_nodup.sublist hsuffix.sublist⟩, ?_⟩
  rw [hcycle]
  refine List.isChain_append.mpr ⟨h.path_chain.suffix hsuffix, List.isChain_singleton d, ?_⟩
  intro x hx y hy
  have hfinal : w.path.getLast? = some f.node := by
    rw [hw, Walk.path]
    simp
  rw [hsplit, List.getLast?_append_of_ne_nil _ (by simp)] at hfinal
  rw [hfinal] at hx
  simp only [Option.mem_def, Option.some.injEq, List.head?_cons] at hx hy
  rw [← hx, ← hy]
  exact hlast

end Walk.Sound

/-! ### A whole search -/

/-- An operation that some walk has entered. -/
def Entered (marks : List Mark) (i : Nat) : Prop := marks[i]? ≠ some .unvisited

theorem Entered.set {marks : List Mark} {i : Nat} (h : Entered marks i) (d : Nat)
    {m : Mark} (hm : m ≠ .unvisited) : Entered (marks.set d m) i := by
  unfold Entered at h ⊢
  rw [List.getElem?_set]
  by_cases hd : d = i
  · rw [if_pos hd]
    split <;> simp [hm]
  · rwa [if_neg hd]

/-- What a round that goes on leaves to the next one. -/
theorem round_goOn {w next : Walk} (h : Walk.Sound g done w) (hround : g.round w = .goOn next) :
    (∃ more, (∀ i ∈ done, i ∈ more) ∧ Walk.Sound g more next)
      ∧ ∀ i, Entered w.marks i → Entered next.marks i := by
  obtain ⟨marks, stack⟩ := w
  cases stack with
  | nil => simp [round] at hround
  | cons f outer =>
      simp only [round] at hround
      split at hround
      · rename_i hend
        cases hround
        exact ⟨⟨f.node :: done, fun i hi => List.mem_cons_of_mem _ hi, h.leave hend⟩,
          fun i hi => hi.set _ (by simp)⟩
      · rename_i d hd
        split at hround
        · rename_i hm
          cases hround
          exact ⟨⟨done, fun i hi => hi, h.enter hd hm⟩, fun i hi => hi.set _ (by simp)⟩
        · cases hround
        · rename_i hm
          cases hround
          exact ⟨⟨done, fun i hi => hi, h.pass hd (Or.inl hm)⟩, fun i hi => hi⟩
        · rename_i hm
          cases hround
          exact ⟨⟨done, fun i hi => hi, h.pass hd (Or.inr hm)⟩, fun i hi => hi⟩

/-- The list that a round reports is a cycle. -/
theorem round_met {w : Walk} {cycle : List Nat} (h : Walk.Sound g done w)
    (hround : g.round w = .met cycle) : g.IsCycle cycle := by
  obtain ⟨marks, stack⟩ := w
  cases stack with
  | nil => simp [round] at hround
  | cons f outer =>
      simp only [round] at hround
      split at hround
      · cases hround
      · rename_i d hd
        split at hround
        · cases hround
        · rename_i hm
          cases hround
          exact h.meet hd hm
        · cases hround
        · cases hround

theorem round_ended {w : Walk} (hround : g.round w = .ended) : w.stack = [] := by
  obtain ⟨marks, stack⟩ := w
  cases stack with
  | nil => rfl
  | cons f outer =>
      simp only [round] at hround
      split at hround
      · cases hround
      · split at hround <;> cases hround

/-- What a search leaves behind when it has found nothing: all that it has entered is done. -/
theorem search_ok (w : Walk) : ∀ {done : List Nat} {marks : List Mark},
    Walk.Sound g done w → g.search w = .ok marks →
    (∃ more, (∀ i ∈ done, i ∈ more) ∧ Walk.Sound g more ⟨marks, []⟩)
      ∧ ∀ i, Entered w.marks i → Entered marks i := by
  induction w using search.induct g with
  | case1 w hround =>
      intro done marks h hs
      rw [search, hround] at hs
      cases hs
      have hstack := round_ended hround
      obtain ⟨m, stack⟩ := w
      cases hstack
      exact ⟨⟨done, fun i hi => hi, h⟩, fun i hi => hi⟩
  | case2 w cycle hround =>
      intro done marks h hs
      rw [search, hround] at hs
      cases hs
  | case3 w next hround ih =>
      intro done marks h hs
      rw [search, hround] at hs
      obtain ⟨⟨more, hsub, hnext⟩, hentered⟩ := round_goOn h hround
      obtain ⟨⟨all, hall, hsound⟩, hlater⟩ := ih hnext hs
      exact ⟨⟨all, fun i hi => hall i (hsub i hi), hsound⟩, fun i hi => hlater i (hentered i hi)⟩

/-- The list that a search reports is a cycle. -/
theorem search_error (w : Walk) : ∀ {done : List Nat} {cycle : List Nat},
    Walk.Sound g done w → g.search w = .error cycle → g.IsCycle cycle := by
  induction w using search.induct g with
  | case1 w hround =>
      intro done cycle h hs
      rw [search, hround] at hs
      cases hs
  | case2 w cycle hround =>
      intro done cycle' h hs
      rw [search, hround] at hs
      cases hs
      exact round_met h hround
  | case3 w next hround ih =>
      intro done cycle h hs
      rw [search, hround] at hs
      obtain ⟨⟨more, -, hnext⟩, -⟩ := round_goOn h hround
      exact ih hnext hs

/-- Putting an operation that nothing has entered on an empty walk. -/
theorem begin_sound {marks : List Mark} {start : Nat} (h : Walk.Sound g done ⟨marks, []⟩)
    (hm : marks[start]? = some .unvisited) :
    Walk.Sound g done ⟨marks.set start .inProgress, [⟨start, 0⟩]⟩ := by
  obtain ⟨hsize, hsettled, hmarked, honWalk, -, -⟩ := h
  have hlt : start < marks.length := (List.getElem?_eq_some_iff.mp hm).1
  refine ⟨by simpa using hsize, hsettled, ?_, ?_, List.nodup_singleton _, ?_, ?_, trivial⟩
  · intro i
    rw [getElem?_set_mark hlt, ← hmarked i]
    by_cases hi : i = start
    · rw [if_pos hi, hi, hm]
      simp
    · rw [if_neg hi]
  · intro i
    have hnone : marks[i]? ≠ some .inProgress := fun hc => by simpa using (honWalk i).mp hc
    rw [getElem?_set_mark hlt]
    by_cases hi : i = start
    · simp [hi]
    · simp [hi, hnone]
  · intro d hd
    simp at hd
  · intro k d hk
    exact absurd hk (Nat.not_lt_zero k)

theorem searchFrom_ok {marks after : List Mark} {start : Nat}
    (h : Walk.Sound g done ⟨marks, []⟩) (hs : g.searchFrom marks start = .ok after) :
    (∃ more, (∀ i ∈ done, i ∈ more) ∧ Walk.Sound g more ⟨after, []⟩)
      ∧ Entered after start ∧ ∀ i, Entered marks i → Entered after i := by
  unfold searchFrom at hs
  split at hs
  · rename_i hm
    obtain ⟨hsound, hentered⟩ := search_ok _ (begin_sound h hm) hs
    refine ⟨hsound, hentered start ?_, fun i hi => hentered i (hi.set start (by simp))⟩
    rw [Entered, getElem?_set_mark (List.getElem?_eq_some_iff.mp hm).1, if_pos rfl]
    simp
  · rename_i hm
    cases hs
    exact ⟨⟨done, fun i hi => hi, h⟩, hm, fun i hi => hi⟩

theorem searchFrom_error {marks : List Mark} {start : Nat} {cycle : List Nat}
    (h : Walk.Sound g done ⟨marks, []⟩) (hs : g.searchFrom marks start = .error cycle) :
    g.IsCycle cycle := by
  unfold searchFrom at hs
  split at hs
  · rename_i hm
    exact search_error _ (begin_sound h hm) hs
  · cases hs

/-- Searching from one operation after the other without finding anything. -/
theorem searchAll_ok : ∀ (starts : List Nat) {done : List Nat} {marks after : List Mark},
    Walk.Sound g done ⟨marks, []⟩ → starts.foldlM g.searchFrom marks = .ok after →
    (∃ more, Walk.Sound g more ⟨after, []⟩)
      ∧ (∀ i ∈ starts, Entered after i) ∧ ∀ i, Entered marks i → Entered after i := by
  intro starts
  induction starts with
  | nil =>
      intro done marks after h hs
      rw [List.foldlM_nil] at hs
      cases hs
      exact ⟨⟨done, h⟩, by simp, fun i hi => hi⟩
  | cons start rest ih =>
      intro done marks after h hs
      rw [List.foldlM_cons] at hs
      cases hfirst : g.searchFrom marks start with
      | error cycle =>
          rw [hfirst] at hs
          cases hs
      | ok middle =>
          rw [hfirst] at hs
          obtain ⟨⟨more, -, hmiddle⟩, hstart, hmono⟩ := searchFrom_ok h hfirst
          obtain ⟨hsound, hrest, hlater⟩ := ih hmiddle hs
          refine ⟨hsound, ?_, fun i hi => hlater i (hmono i hi)⟩
          intro i hi
          rcases List.mem_cons.mp hi with rfl | hi
          · exact hlater i hstart
          · exact hrest i hi

theorem searchAll_error : ∀ (starts : List Nat) {done : List Nat} {marks : List Mark}
    {cycle : List Nat}, Walk.Sound g done ⟨marks, []⟩ →
    starts.foldlM g.searchFrom marks = .error cycle → g.IsCycle cycle := by
  intro starts
  induction starts with
  | nil =>
      intro done marks cycle h hs
      rw [List.foldlM_nil] at hs
      cases hs
  | cons start rest ih =>
      intro done marks cycle h hs
      rw [List.foldlM_cons] at hs
      cases hfirst : g.searchFrom marks start with
      | error found =>
          rw [hfirst] at hs
          cases hs
          exact searchFrom_error h hfirst
      | ok middle =>
          rw [hfirst] at hs
          obtain ⟨⟨more, -, hmiddle⟩, -⟩ := searchFrom_ok h hfirst
          exact ih hmiddle hs

/-! ### Finding a cycle -/

/-- A search that finds nothing leaves all operations done, in an order in which each comes after
all that it waits on. -/
theorem settled_of_findCycle_none (h : g.findCycle = none) :
    ∃ done, Settled g done ∧ ∀ i < g.length, i ∈ done := by
  unfold findCycle at h
  split at h
  · simp at h
  · rename_i marks hs
    obtain ⟨⟨done, hsound⟩, hentered, -⟩ := searchAll_ok _ (Walk.Sound.start g) hs
    refine ⟨done, hsound.settled, fun i hi => (hsound.marked i).mp ?_⟩
    have hlt : i < marks.length := hsound.size ▸ hi
    have hin : marks[i]? ≠ some .inProgress := fun hc => by
      simpa using (hsound.onWalk i).mp hc
    have hun : marks[i]? ≠ some .unvisited := hentered i (List.mem_range.mpr hi)
    rw [List.getElem?_eq_getElem hlt] at hin hun ⊢
    cases hmark : marks[i] with
    | unvisited => exact absurd (by rw [hmark]) hun
    | inProgress => exact absurd (by rw [hmark]) hin
    | done => rfl

/-- **What the search reports is a cycle.** -/
theorem isCycle_of_findCycle {cycle : List Nat} (h : g.findCycle = some cycle) :
    g.IsCycle cycle := by
  unfold findCycle at h
  split at h
  · rename_i found hs
    cases h
    exact searchAll_error _ (Walk.Sound.start g) hs
  · simp at h

/-- A way of at least one step along the waits, from its operations listed one by one. -/
theorem transGen_of_isChain : ∀ (inner : List Nat) (first last : Nat),
    (first :: inner ++ [last]).IsChain g.Waits → Relation.TransGen g.Waits first last := by
  intro inner
  induction inner with
  | nil =>
      intro first last h
      exact .single ((List.isChain_cons_cons.mp h).1)
  | cons next rest ih =>
      intro first last h
      obtain ⟨hstep, hrest⟩ := List.isChain_cons_cons.mp h
      exact .head hstep (ih next last hrest)

theorem IsCycle.not_acyclic {cycle : List Nat} (h : g.IsCycle cycle) : ¬ g.Acyclic := by
  intro hno
  obtain ⟨node, inner, hsplit, -⟩ := h.closed
  have hwaits := h.waits
  rw [hsplit] at hwaits
  exact hno node (transGen_of_isChain inner node node hwaits)

/-- **The search finds nothing exactly if there is no cycle.** -/
theorem findCycle_eq_none_iff (g : WaitGraph) : g.findCycle = none ↔ g.Acyclic := by
  refine ⟨?_, ?_⟩
  · intro h
    obtain ⟨done, hsettled, hall⟩ := settled_of_findCycle_none h
    exact hsettled.acyclic hall
  · intro h
    cases hfound : g.findCycle with
    | none => rfl
    | some cycle => exact absurd h (isCycle_of_findCycle hfound).not_acyclic

/-- Operations without a cycle can be put in an order in which each comes after all that it waits
on. -/
theorem exists_order (h : g.Acyclic) :
    ∃ order : List Nat, order.Perm (List.range g.length)
      ∧ ∀ i j, i < g.length → g.Waits i j → order.idxOf j < order.idxOf i := by
  obtain ⟨done, hsettled, hall⟩ := settled_of_findCycle_none ((findCycle_eq_none_iff g).mpr h)
  refine ⟨done.reverse, (List.reverse_perm done).trans (hsettled.perm_range hall), ?_⟩
  intro i j hi hw
  exact hsettled.idxOf_lt (hall i hi) hw

end Testbed.WaitGraph

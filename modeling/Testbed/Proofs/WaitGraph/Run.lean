/-
The search for a cycle, from its beginning to its end.

A run is a sequence of rounds; where a walk has come to its end, the next operation that
none has entered begins a new one.  The log of a run tells what was done in it: which
operations were put on the walk and taken off, and which entries of their lists were
looked at.

The search itself keeps no log, but all that was done can be told from the marks and the
frames.  An operation was entered if it is not marked as unvisited, and left if it is
marked as done; an entry was looked at if the frame of its operation has passed it, or if
its operation is done.  So what a round does was not done before, and nothing is done
twice in a run.  As there are only so many operations and entries, every run is short.
-/
import Testbed.Proofs.WaitGraph

namespace Testbed.WaitGraph

/-- What the search does. -/
inductive Deed where
  /-- An operation is put on the walk. -/
  | enter (node : Nat)
  /-- The entry at a position in the list of an operation is looked at. -/
  | visit (node position : Nat)
  /-- An operation is taken off the walk. -/
  | leave (node : Nat)
deriving DecidableEq

/-- What is done in the next round. -/
def deeds (g : WaitGraph) (w : Walk) : List Deed :=
  match w.stack with
  | [] => []
  | f :: _ =>
    match g.ahead? f with
    | none => [.leave f.node]
    | some d =>
      .visit f.node f.next :: if w.marks[d]? = some .unvisited then [.enter d] else []

/-- A run of the search up to some point: what was done in it, from how many operations it has
tried to begin a walk, and the walk it has come to. -/
inductive Run (g : WaitGraph) : List Deed → Nat → Walk → Prop
  | start : Run g [] 0 ⟨List.replicate g.length .unvisited, []⟩
  /-- An operation that was entered before begins no walk. -/
  | skip {log : List Deed} {tried : Nat} {marks : List Mark} (before : Run g log tried ⟨marks, []⟩)
      (lt : tried < g.length) (entered : Entered marks tried) : Run g log (tried + 1) ⟨marks, []⟩
  | begin {log : List Deed} {tried : Nat} {marks : List Mark}
      (before : Run g log tried ⟨marks, []⟩) (unvisited : marks[tried]? = some .unvisited) :
      Run g (log ++ [.enter tried]) (tried + 1) ⟨marks.set tried .inProgress, [⟨tried, 0⟩]⟩
  | round {log : List Deed} {tried : Nat} {w next : Walk} (before : Run g log tried w)
      (goesOn : g.round w = .goOn next) : Run g (log ++ g.deeds w) tried next

variable {g : WaitGraph} {done : List Nat} {log : List Deed} {tried : Nat} {w : Walk}

/-! ### One round after the other -/

/-- The search is sound at every point of a run. -/
theorem Run.sound (h : g.Run log tried w) : ∃ done, Walk.Sound g done w := by
  induction h with
  | start => exact ⟨[], Walk.Sound.start g⟩
  | skip before lt entered ih => exact ih
  | begin before unvisited ih =>
      obtain ⟨done, hsound⟩ := ih
      exact ⟨done, begin_sound hsound unvisited⟩
  | round before goesOn ih =>
      obtain ⟨done, hsound⟩ := ih
      obtain ⟨⟨more, -, hnext⟩, -⟩ := round_goOn hsound goesOn
      exact ⟨more, hnext⟩

theorem Run.tried_le (h : g.Run log tried w) : tried ≤ g.length := by
  induction h with
  | start => exact Nat.zero_le _
  | skip before lt entered ih => exact lt
  | begin before unvisited ih =>
      obtain ⟨done, hsound⟩ := before.sound
      exact hsound.size ▸ (List.getElem?_eq_some_iff.mp unvisited).1
  | round before goesOn ih => exact ih

/-- The three ways in which a round goes on, with what is done in it. -/
theorem round_goOn_cases {next : Walk} (h : g.round w = .goOn next) :
    ∃ marks f outer, w = ⟨marks, f :: outer⟩
      ∧ ((g.ahead? f = none ∧ g.deeds w = [.leave f.node]
          ∧ next = ⟨marks.set f.node .done, outer⟩)
        ∨ (∃ d, g.ahead? f = some d ∧ marks[d]? = some .unvisited
          ∧ g.deeds w = [.visit f.node f.next, .enter d]
          ∧ next = ⟨marks.set d .inProgress, ⟨d, 0⟩ :: { f with next := f.next + 1 } :: outer⟩)
        ∨ (∃ d, g.ahead? f = some d ∧ g.deeds w = [.visit f.node f.next]
          ∧ next = ⟨marks, { f with next := f.next + 1 } :: outer⟩)) := by
  obtain ⟨marks, stack⟩ := w
  cases stack with
  | nil => simp [WaitGraph.round] at h
  | cons f outer =>
      refine ⟨marks, f, outer, rfl, ?_⟩
      simp only [WaitGraph.round] at h
      split at h
      · rename_i hend
        cases h
        exact Or.inl ⟨hend, by simp [deeds, hend], rfl⟩
      · rename_i d hd
        right
        split at h
        · rename_i hm
          cases h
          exact Or.inl ⟨d, hd, hm, by simp [deeds, hd, hm], rfl⟩
        · cases h
        · rename_i hm
          cases h
          exact Or.inr ⟨d, hd, by simp [deeds, hd, hm], rfl⟩
        · rename_i hm
          cases h
          exact Or.inr ⟨d, hd, by simp [deeds, hd, hm], rfl⟩

/-! ### What was done can be told from the walk -/

/-- Something that was done, as the marks and the frames tell. -/
def Did (g : WaitGraph) (w : Walk) : Deed → Prop
  | .enter i => ∃ m, w.marks[i]? = some m ∧ m ≠ .unvisited
  | .visit i k => (∃ f ∈ w.stack, f.node = i ∧ k < f.next)
      ∨ (w.marks[i]? = some .done ∧ k < (g.getD i []).length)
  | .leave i => w.marks[i]? = some .done

/-- No frame has passed more than there is. -/
def Walk.Within (g : WaitGraph) (w : Walk) : Prop :=
  ∀ f ∈ w.stack, f.next ≤ (g.getD f.node []).length

section Top

variable {marks : List Mark} {f : Frame} {outer : List Frame}

theorem Walk.Sound.marks_top (h : Walk.Sound g done ⟨marks, f :: outer⟩) :
    marks[f.node]? = some .inProgress :=
  (h.onWalk f.node).mpr List.mem_cons_self

theorem Walk.Sound.node_ne_top (h : Walk.Sound g done ⟨marks, f :: outer⟩) :
    ∀ f' ∈ outer, f'.node ≠ f.node := by
  intro f' hf' heq
  have hnotMem : f.node ∉ outer.map Frame.node := (List.nodup_cons.mp h.distinct).1
  exact hnotMem (heq ▸ List.mem_map_of_mem hf')

/-- A frame at its end has passed all entries, and its operation is done when it is left. -/
theorem did_leave (h : Walk.Sound g done ⟨marks, f :: outer⟩)
    (hwithin : Walk.Within g ⟨marks, f :: outer⟩) (hend : g.ahead? f = none) (e : Deed) :
    g.Did ⟨marks.set f.node .done, outer⟩ e
      ↔ g.Did ⟨marks, f :: outer⟩ e ∨ e ∈ [Deed.leave f.node] := by
  have htop := h.marks_top
  have hmarks := getElem?_set_mark (List.getElem?_eq_some_iff.mp htop).1 .done
  cases e with
  | enter i =>
      simp only [Did, hmarks]
      by_cases hi : i = f.node
      · simp [hi, htop]
      · simp [hi]
  | visit i k =>
      simp only [Did, hmarks, List.exists_mem_cons_iff]
      by_cases hi : i = f.node
      · have hall : (g.getD f.node []).length = f.next :=
          Nat.le_antisymm (List.getElem?_eq_none_iff.mp hend) (hwithin f List.mem_cons_self)
        have hnone : ¬ ∃ f' ∈ outer, f'.node = f.node ∧ k < f'.next :=
          fun ⟨f', hf', hnode, _⟩ => h.node_ne_top f' hf' hnode
        rw [hi, hall]
        simp [htop, hnone]
      · simp [hi, Ne.symm hi]
  | leave i =>
      simp only [Did, hmarks]
      by_cases hi : i = f.node
      · simp [hi]
      · simp [hi]

/-- Passing an entry is all that is done where it leads to no new operation. -/
theorem did_pass (e : Deed) :
    g.Did ⟨marks, { f with next := f.next + 1 } :: outer⟩ e
      ↔ g.Did ⟨marks, f :: outer⟩ e ∨ e ∈ [Deed.visit f.node f.next] := by
  cases e with
  | enter i => simp [Did]
  | visit i k =>
      have hpassed : (f.node = i ∧ k < f.next + 1)
          ↔ (f.node = i ∧ k < f.next) ∨ (i = f.node ∧ k = f.next) := by
        omega
      simp only [Did, List.exists_mem_cons_iff, hpassed, List.mem_singleton, Deed.visit.injEq,
        or_assoc, or_comm]
  | leave i => simp [Did]

/-- A new operation is entered with all of its entries ahead. -/
theorem did_enter {d : Nat} {frames : List Frame} (hm : marks[d]? = some .unvisited) (e : Deed) :
    g.Did ⟨marks.set d .inProgress, ⟨d, 0⟩ :: frames⟩ e
      ↔ g.Did ⟨marks, frames⟩ e ∨ e ∈ [Deed.enter d] := by
  have hmarks := getElem?_set_mark (List.getElem?_eq_some_iff.mp hm).1 .inProgress
  cases e with
  | enter i =>
      simp only [Did, hmarks]
      by_cases hi : i = d
      · simp [hi]
      · simp [hi]
  | visit i k =>
      simp only [Did, hmarks, List.exists_mem_cons_iff]
      by_cases hi : i = d
      · simp [hi, hm]
      · simp [hi]
  | leave i =>
      simp only [Did, hmarks]
      by_cases hi : i = d
      · simp [hi, hm]
      · simp [hi]

end Top

/-- **What a round does is added to what was done, and nothing else is.** -/
theorem did_round {next : Walk} (h : Walk.Sound g done w) (hwithin : w.Within g)
    (hround : g.round w = .goOn next) (e : Deed) :
    g.Did next e ↔ g.Did w e ∨ e ∈ g.deeds w := by
  obtain ⟨marks, f, outer, rfl, ⟨hend, hdeeds, rfl⟩ | ⟨d, -, hm, hdeeds, rfl⟩ | ⟨d, -, hdeeds, rfl⟩⟩ :=
    round_goOn_cases hround
  · rw [hdeeds]
    exact did_leave h hwithin hend e
  · rw [hdeeds, did_enter hm, did_pass, or_assoc, ← List.mem_append, List.singleton_append]
  · rw [hdeeds]
    exact did_pass e

theorem within_round {next : Walk} (hwithin : w.Within g) (hround : g.round w = .goOn next) :
    next.Within g := by
  obtain ⟨marks, f, outer, rfl, ⟨-, -, rfl⟩ | ⟨d, hd, -, -, rfl⟩ | ⟨d, hd, -, rfl⟩⟩ :=
    round_goOn_cases hround
  · exact fun f' hf' => hwithin f' (List.mem_cons_of_mem _ hf')
  · refine List.forall_mem_cons.mpr ⟨Nat.zero_le _, List.forall_mem_cons.mpr ⟨?_, ?_⟩⟩
    · exact (List.getElem?_eq_some_iff.mp hd).1
    · exact fun f' hf' => hwithin f' (List.mem_cons_of_mem _ hf')
  · refine List.forall_mem_cons.mpr ⟨?_, fun f' hf' => hwithin f' (List.mem_cons_of_mem _ hf')⟩
    exact (List.getElem?_eq_some_iff.mp hd).1

/-- What a round does was not done before. -/
theorem not_did_deeds (h : Walk.Sound g done w) : ∀ e ∈ g.deeds w, ¬ g.Did w e := by
  obtain ⟨marks, stack⟩ := w
  cases stack with
  | nil => simp [deeds]
  | cons f outer =>
      have htop := h.marks_top
      have hvisit : ¬ g.Did ⟨marks, f :: outer⟩ (.visit f.node f.next) := by
        rintro (⟨f', hf', hnode, hlt⟩ | ⟨hdone, -⟩)
        · rcases List.mem_cons.mp hf' with rfl | hf'
          · exact Nat.lt_irrefl _ hlt
          · exact h.node_ne_top f' hf' hnode
        · simp [htop] at hdone
      unfold deeds
      dsimp only
      split
      · intro e he
        rw [List.mem_singleton.mp he]
        simp [Did, htop]
      · rename_i d hd
        refine List.forall_mem_cons.mpr ⟨hvisit, fun e he => ?_⟩
        split at he
        · rename_i hm
          rw [List.mem_singleton.mp he]
          simp [Did, hm]
        · cases he

theorem nodup_deeds (g : WaitGraph) (w : Walk) : (g.deeds w).Nodup := by
  unfold deeds
  split
  · exact List.nodup_nil
  · split
    · exact List.nodup_singleton _
    · split <;> simp

/-- **Everything that was done in a run can be told from the walk that it has come to.** -/
theorem Run.told (h : g.Run log tried w) : w.Within g ∧ ∀ e, e ∈ log ↔ g.Did w e := by
  induction h with
  | start =>
      refine ⟨by simp [Walk.Within], fun e => iff_of_false List.not_mem_nil ?_⟩
      cases e <;> simp [Did, List.getElem?_replicate]
  | skip before lt entered ih => exact ih
  | begin before unvisited ih =>
      refine ⟨List.forall_mem_singleton.mpr (Nat.zero_le _), fun e => ?_⟩
      rw [List.mem_append, ih.2 e, did_enter unvisited]
  | round before goesOn ih =>
      obtain ⟨done, hsound⟩ := before.sound
      refine ⟨within_round ih.1 goesOn, fun e => ?_⟩
      rw [List.mem_append, ih.2 e, did_round hsound ih.1 goesOn]

/-- Nothing is done twice, in the round that follows neither. -/
theorem Run.once (h : g.Run log tried w) : (log ++ g.deeds w).Nodup := by
  have happend : ∀ {log tried w}, g.Run log tried w → log.Nodup → (log ++ g.deeds w).Nodup := by
    intro log tried w h hlog
    obtain ⟨done, hsound⟩ := h.sound
    refine List.nodup_append'.mpr ⟨hlog, nodup_deeds g w, fun e he hnext => ?_⟩
    exact not_did_deeds hsound e hnext ((h.told.2 e).mp he)
  refine happend h ?_
  induction h with
  | start => exact List.nodup_nil
  | skip before lt entered ih => exact ih
  | @begin log tried marks before unvisited ih =>
      refine List.nodup_append'.mpr ⟨ih, List.nodup_singleton _, fun e he hnext => ?_⟩
      rw [List.mem_singleton.mp hnext, before.told.2] at he
      obtain ⟨m, hm, hentered⟩ := he
      exact hentered (Option.some.inj (hm.symm.trans unvisited))
  | round before goesOn ih => exact happend before ih

/-! ### How much there is to do -/

/-- An operation, or an entry of the list of one. -/
def Deed.InRange (g : WaitGraph) : Deed → Prop
  | enter i => i < g.length
  | visit i k => i < g.length ∧ k < (g.getD i []).length
  | leave i => i < g.length

/-- All that could be done with the operations and their entries. -/
def allDeeds (g : WaitGraph) : List Deed :=
  (List.range g.length).map .enter ++ (List.range g.length).map .leave
    ++ (List.range g.length).flatMap fun i => (List.range (g.getD i []).length).map (.visit i)

theorem mem_allDeeds_iff (e : Deed) : e ∈ g.allDeeds ↔ e.InRange g := by
  cases e <;> simp [allDeeds, Deed.InRange]

theorem length_allDeeds (g : WaitGraph) :
    g.allDeeds.length = 2 * g.length + g.flatten.length := by
  have hentries : (List.range g.length).map (fun i => (g.getD i []).length)
      = g.map List.length := by
    refine List.ext_getElem (by simp) fun i hi _ => ?_
    rw [List.length_map, List.length_range] at hi
    simp [hi]
  simp only [allDeeds, List.length_append, List.length_map, List.length_range, List.length_flatMap,
    List.length_flatten, hentries]
  omega

/-- Whatever was done, or is done next, was done to an operation or to an entry of one. -/
theorem Run.inRange (h : g.Run log tried w) : ∀ e ∈ log ++ g.deeds w, e.InRange g := by
  obtain ⟨done, hsound⟩ := h.sound
  obtain ⟨hwithin, htold⟩ := h.told
  have hmark : ∀ {i m}, w.marks[i]? = some m → i < g.length := fun hm =>
    hsound.size ▸ (List.getElem?_eq_some_iff.mp hm).1
  have hnode : ∀ f ∈ w.stack, f.node < g.length := fun f hf =>
    hmark ((hsound.onWalk f.node).mpr (List.mem_map_of_mem hf))
  refine List.forall_mem_append.mpr ⟨fun e he => ?_, fun e he => ?_⟩
  · rw [htold] at he
    cases e with
    | enter i =>
        obtain ⟨m, hm, -⟩ := he
        exact hmark hm
    | visit i k =>
        rcases he with ⟨f, hf, rfl, hlt⟩ | ⟨hdone, hlt⟩
        · exact ⟨hnode f hf, Nat.lt_of_lt_of_le hlt (hwithin f hf)⟩
        · exact ⟨hmark hdone, hlt⟩
    | leave i => exact hmark he
  · obtain ⟨marks, stack⟩ := w
    cases stack with
    | nil => cases he
    | cons f outer =>
        have hf := hnode f List.mem_cons_self
        unfold deeds at he
        dsimp only at he
        split at he
        · rw [List.mem_singleton.mp he]
          exact hf
        · rename_i d hd
          rcases List.mem_cons.mp he with rfl | he
          · exact ⟨hf, (List.getElem?_eq_some_iff.mp hd).1⟩
          · split at he
            · rename_i hm
              rw [List.mem_singleton.mp he]
              exact hmark hm
            · cases he

theorem Run.length_le (h : g.Run log tried w) :
    (log ++ g.deeds w).length ≤ 2 * g.length + g.flatten.length := by
  rw [← length_allDeeds]
  exact (List.subperm_of_subset h.once fun e he =>
    (mem_allDeeds_iff e).mpr (h.inRange e he)).length_le

/-! ### The answer of a run -/

/-- Searches from the operations that have not been tried. -/
def searchOn (g : WaitGraph) (tried : Nat) (marks : List Mark) : Except (List Nat) (List Mark) :=
  (List.range' tried (g.length - tried)).foldlM g.searchFrom marks

theorem searchOn_of_lt (h : tried < g.length) (marks : List Mark) :
    g.searchOn tried marks = g.searchFrom marks tried >>= g.searchOn (tried + 1) := by
  unfold searchOn
  rw [show g.length - tried = g.length - (tried + 1) + 1 by omega, List.range'_succ,
    List.foldlM_cons]

theorem search_ended (g : WaitGraph) (marks : List Mark) : g.search ⟨marks, []⟩ = .ok marks := by
  rw [search]
  rfl

/-- At every point of a run, what is left to do leads to the answer. -/
theorem Run.rest (h : g.Run log tried w) :
    g.searchOn 0 (List.replicate g.length .unvisited) = g.search w >>= g.searchOn tried := by
  induction h with
  | start =>
      rw [search_ended]
      rfl
  | @skip log tried marks before lt entered ih =>
      have hskip : g.searchFrom marks tried = .ok marks := by
        unfold searchFrom
        split
        · rename_i hunvisited
          exact absurd hunvisited entered
        · rfl
      rw [ih, search_ended]
      show g.searchOn tried marks = g.searchOn (tried + 1) marks
      rw [searchOn_of_lt lt, hskip]
      rfl
  | @begin log tried marks before unvisited ih =>
      have hlt : tried < g.length := (before.begin unvisited).tried_le
      rw [ih, search_ended]
      show g.searchOn tried marks = _
      rw [searchOn_of_lt hlt, searchFrom, unvisited]
  | round before goesOn ih =>
      rw [ih, search, goesOn]

/-- A run that has tried all operations has found nothing. -/
theorem Run.findCycle_eq_none {marks : List Mark} (h : g.Run log g.length ⟨marks, []⟩) :
    g.findCycle = none := by
  have hrest := h.rest
  rw [search_ended, searchOn, Nat.sub_zero, ← List.range_eq_range'] at hrest
  rw [findCycle, hrest]
  simp [searchOn, bind, Except.bind, pure, Except.pure]

/-- A run in which the walk has met itself has found the answer. -/
theorem Run.findCycle_eq_some {cycle : List Nat} (h : g.Run log tried w)
    (hmet : g.round w = .met cycle) : g.findCycle = some cycle := by
  have hrest := h.rest
  rw [search, hmet, searchOn, Nat.sub_zero, ← List.range_eq_range'] at hrest
  rw [findCycle, hrest]
  rfl

/-- A run in which a walk has met itself. -/
def Meets (g : WaitGraph) : Prop :=
  ∃ log tried w cycle, g.Run log tried w ∧ g.round w = .met cycle

/-- A walk that is begun in a run comes to its end, or it meets itself. -/
theorem Run.walk_ends (w : Walk) : ∀ {log : List Deed}, g.Run log tried w →
    (∃ more marks, g.Run more tried ⟨marks, []⟩) ∨ g.Meets := by
  induction w using search.induct g with
  | case1 w hround =>
      intro log h
      obtain ⟨marks, stack⟩ := w
      cases round_ended hround
      exact Or.inl ⟨log, marks, h⟩
  | case2 w cycle hround => exact fun h => Or.inr ⟨_, tried, w, cycle, h, hround⟩
  | case3 w next hround ih => exact fun h => ih (h.round hround)

/-- So does the whole run, after the last operation or before. -/
theorem Run.ends {log : List Deed} {tried : Nat} {marks : List Mark}
    (h : g.Run log tried ⟨marks, []⟩) : (∃ more after, g.Run more g.length ⟨after, []⟩) ∨ g.Meets := by
  rcases Nat.lt_or_ge tried g.length with hlt | hge
  · by_cases hunvisited : marks[tried]? = some .unvisited
    · rcases Run.walk_ends _ (h.begin hunvisited) with ⟨more, after, hafter⟩ | hmeets
      · exact hafter.ends
      · exact Or.inr hmeets
    · exact (h.skip hlt hunvisited).ends
  · have htried : tried = g.length := Nat.le_antisymm h.tried_le hge
    exact Or.inl ⟨log, marks, htried ▸ h⟩
termination_by g.length - tried

/-! ### What holds throughout a run -/

/-- What holds at a point of a run. -/
structure Orderly (g : WaitGraph) (log : List Deed) (tried : Nat) (w : Walk) : Prop where
  /-- No operation is on the walk twice. -/
  distinct : (w.stack.map Frame.node).Nodup
  /-- The operations on the walk are those marked as in progress. -/
  inProgress : ∀ i, w.marks[i]? = some .inProgress ↔ i ∈ w.stack.map Frame.node
  tried_le : tried ≤ g.length
  /-- There is a mark for each operation, and for nothing else. -/
  marks : ∀ i, (∃ m, w.marks[i]? = some m) ↔ i < g.length
  /-- All that is done is done to operations and to entries that there are. -/
  inRange : ∀ e ∈ log ++ g.deeds w, e.InRange g
  /-- The log tells what the marks and the frames tell. -/
  told : ∀ e, e ∈ log ↔ g.Did w e
  /-- Nothing is done twice, in the next round neither. -/
  once : (log ++ g.deeds w).Nodup
  length_le : (log ++ g.deeds w).length ≤ 2 * g.length + g.flatten.length
  /-- No round passes in which nothing is done, as long as there is a walk. -/
  busy : w.stack ≠ [] → g.deeds w ≠ []
  /-- An entry that leads to an operation in progress leads back to the walk, and what is reported
  is the walk from there on. -/
  met : ∀ f outer d, w.stack = f :: outer → g.ahead? f = some d →
    w.marks[d]? = some .inProgress → ∃ before inner, w.path = before ++ d :: inner
      ∧ d ∉ before ∧ g.round w = .met (d :: inner ++ [d])

theorem deeds_ne_nil (h : w.stack ≠ []) : g.deeds w ≠ [] := by
  obtain ⟨marks, stack⟩ := w
  cases stack with
  | nil => exact absurd rfl h
  | cons f outer =>
      unfold deeds
      dsimp only
      split <;> simp

theorem Run.orderly (h : g.Run log tried w) : g.Orderly log tried w := by
  obtain ⟨done, hsound⟩ := h.sound
  refine ⟨hsound.distinct, hsound.onWalk, h.tried_le, fun i => ?_, h.inRange, h.told.2, h.once,
    h.length_le, deeds_ne_nil, fun f outer d hstack hd hm => ?_⟩
  · rw [← hsound.size, ← Option.isSome_iff_exists]
    simp
  · obtain ⟨before, inner, hpath, hbefore, hcycle⟩ :=
      Walk.cycleAt_of_mem (List.mem_reverse.mpr ((hsound.onWalk d).mp hm))
    refine ⟨before, inner, hpath, hbefore, ?_⟩
    rw [WaitGraph.round, hstack]
    simp only [hd, hm, hcycle]

/--
**Throughout a run of the search its walk is in order, and every run leads to the answer.**

The operations on the walk are different from one another, and they are those in progress; every
mark and every list that is looked up is there.  No operation is put on the walk twice and no entry
is looked at twice from the beginning of the run to its end, so there is a bound on what can be
done.  What the search answers is what a run ends with: nothing if all operations have been
tried, and the cycle that the walk has closed if it has met itself.
-/
theorem run_orderly (g : WaitGraph) :
    (∀ log tried w, g.Run log tried w → g.Orderly log tried w)
      ∧ (g.findCycle = none ↔ ∃ log marks, g.Run log g.length ⟨marks, []⟩)
      ∧ ∀ cycle, g.findCycle = some cycle
        ↔ ∃ log tried w, g.Run log tried w ∧ g.round w = .met cycle := by
  refine ⟨fun log tried w h => h.orderly, ⟨fun hnone => ?_, fun ⟨log, marks, h⟩ =>
    h.findCycle_eq_none⟩, fun cycle => ⟨fun hsome => ?_, fun ⟨log, tried, w, h, hmet⟩ =>
    h.findCycle_eq_some hmet⟩⟩
  · rcases (Run.start (g := g)).ends with hend | ⟨log, tried, w, cycle, h, hmet⟩
    · exact hend
    · cases hnone.symm.trans (h.findCycle_eq_some hmet)
  · rcases (Run.start (g := g)).ends with ⟨log, marks, h⟩ | ⟨log, tried, w, found, h, hmet⟩
    · cases hsome.symm.trans h.findCycle_eq_none
    · cases hsome.symm.trans (h.findCycle_eq_some hmet)
      exact ⟨log, tried, w, h, hmet⟩

/-- The walk from 0 has passed an entry that leads to no operation, and entered 1, which waits on
itself. -/
theorem run_selfWait :
    Run [[9, 1], [1]] [.enter 0, .visit 0 0, .visit 0 1, .enter 1] 1
        ⟨[.inProgress, .inProgress], [⟨1, 0⟩, ⟨0, 2⟩]⟩
      ∧ Orderly [[9, 1], [1]] [.enter 0, .visit 0 0, .visit 0 1, .enter 1] 1
        ⟨[.inProgress, .inProgress], [⟨1, 0⟩, ⟨0, 2⟩]⟩
      ∧ findCycle [[9, 1], [1]] = some [1, 1] := by
  have hbegun : Run [[9, 1], [1]] [.enter 0] 1 ⟨[.inProgress, .unvisited], [⟨0, 0⟩]⟩ :=
    Run.start.begin rfl
  have hpassed : Run [[9, 1], [1]] [.enter 0, .visit 0 0] 1
      ⟨[.inProgress, .unvisited], [⟨0, 1⟩]⟩ := hbegun.round rfl
  have hentered : Run [[9, 1], [1]] [.enter 0, .visit 0 0, .visit 0 1, .enter 1] 1
      ⟨[.inProgress, .inProgress], [⟨1, 0⟩, ⟨0, 2⟩]⟩ := hpassed.round rfl
  obtain ⟨horderly, -, hcycle⟩ := run_orderly [[9, 1], [1]]
  exact ⟨hentered, horderly _ _ _ hentered, (hcycle _).mpr ⟨_, _, _, hentered, rfl⟩⟩

end Testbed.WaitGraph

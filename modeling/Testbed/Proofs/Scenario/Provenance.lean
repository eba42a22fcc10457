/-
Where what is in a scenario comes from.

A log tells which scenario was copied from which, and how many operations it had then;
it also tells which operation became which, by changes in its place and by copies to
the same position of another scenario.  Both are said here of the log alone.

`Recorded` is the invariant that ties the log to the scenarios themselves: the ancestry
that a live scenario carries is what the log says about it, and every operation in it
goes back to a new one by way of its ancestors.  One lemma for each field shows that a
step preserves it.
-/
import Testbed.Proofs.Scenario.Step
import Mathlib.Data.List.Pairwise

namespace Testbed

/-! ### What a log tells -/

namespace Log

/-- A scenario was copied, directly or over further copies, from another one, which had `size`
operations when it was copied. -/
inductive CopiedFrom (log : Log) : (copy source size : Nat) → Prop
  | directly {copy source size : Nat} (logged : .copied copy source size ∈ log) :
      CopiedFrom log copy source size
  | further {copy via source between size : Nat} (logged : .copied copy via between ∈ log)
      (rest : CopiedFrom log via source size) : CopiedFrom log copy source size

/-- A slot was filled with a copy of what was in another one. -/
inductive Fills (log : Log) : Slot → Slot → Prop
  | mk {copy source size position : Nat} (logged : .copied copy source size ∈ log)
      (lt : position < size) : Fills log ⟨source, position⟩ ⟨copy, position⟩

/-- An operation was changed in its slot, or copied to another slot. -/
inductive Turns (log : Log) : Slot × Operation Scenario → Slot × Operation Scenario → Prop
  | changed {slot : Slot} {op op' : Operation Scenario} {c : Change}
      (logged : .changed slot c ∈ log) (done : c.apply op = .ok op') :
      Turns log (slot, op) (slot, op')
  | copied {source copy : Slot} {op op' : Operation Scenario} (fills : Fills log source copy)
      (made : Scenario.OperationCopy op op') : Turns log (source, op) (copy, op')

/-- An operation became another one, by changes and copies. -/
abbrev Becomes (log : Log) : Slot × Operation Scenario → Slot × Operation Scenario → Prop :=
  Relation.ReflTransGen log.Turns

variable {log more : Log}

theorem CopiedFrom.append {copy source size : Nat} (h : log.CopiedFrom copy source size)
    (more : Log) : CopiedFrom (log ++ more) copy source size := by
  induction h with
  | directly logged => exact .directly (List.mem_append_left _ logged)
  | further logged _ ih => exact .further (List.mem_append_left _ logged) ih

theorem Turns.append {a b : Slot × Operation Scenario} (h : log.Turns a b) (more : Log) :
    Turns (log ++ more) a b := by
  cases h with
  | changed logged done => exact .changed (List.mem_append_left _ logged) done
  | copied fills made =>
      obtain ⟨logged, lt⟩ := fills
      exact .copied ⟨List.mem_append_left _ logged, lt⟩ made

theorem Becomes.append {a b : Slot × Operation Scenario} (h : log.Becomes a b) (more : Log) :
    Becomes (log ++ more) a b :=
  Relation.ReflTransGen.mono (fun _ _ (turn : log.Turns _ _) => turn.append more) _ _ h

/-- What changes and copies leave true of operations stays true on the way. -/
theorem Becomes.keeps {P : Operation Scenario → Prop}
    (hchange : ∀ {c : Change} {op op' : Operation Scenario}, c.apply op = .ok op' → P op → P op')
    (hcopy : ∀ {op : Operation Scenario} (s : Scenario), P op → P (op.withEmbedded s))
    {a b : Slot × Operation Scenario} (h : log.Becomes a b) : P a.2 → P b.2 := by
  intro ha
  induction h with
  | refl => exact ha
  | tail _ turn ih =>
      cases turn with
      | changed _ done => exact hchange done ih
      | copied _ made =>
          obtain ⟨s, rfl⟩ := made
          exact hcopy s ih

/-- What an operation becomes is of the same kind. -/
theorem Becomes.kind {a b : Slot × Operation Scenario} (h : log.Becomes a b) :
    b.2.kind = a.2.kind :=
  h.keeps (P := fun op => op.kind = a.2.kind) (fun done heq => (Change.apply_kind done).trans heq)
    (fun s heq => (Operation.kind_withEmbedded _ s).trans heq) rfl

theorem Becomes.fills {a b : Slot × Operation Scenario} (h : log.Becomes a b) :
    Relation.ReflTransGen log.Fills a.1 b.1 := by
  induction h with
  | refl => exact .refl
  | tail _ turn ih =>
      cases turn with
      | changed _ _ => exact ih
      | copied fills _ => exact ih.tail fills

/-- A scenario comes to be once. -/
theorem eq_of_born (h : log.born.Nodup) {e e' : Event} (he : e ∈ log) (he' : e' ∈ log) {i : Nat}
    (hi : e.born? = some i) (hi' : e'.born? = some i) : e = e' := by
  rw [born, List.Nodup, List.pairwise_filterMap] at h
  have hsymm : Std.Symm fun a a' : Event =>
      ∀ j, a.born? = some j → ∀ k, a'.born? = some k → j ≠ k :=
    ⟨fun _ _ hne j hj k hk => (hne k hk j hj).symm⟩
  by_contra hne
  exact h.forall he he' hne i hi i hi' rfl

/-- Slots that are filled with new operations, and with nothing else. -/
def AddedApart (log : Log) : Prop :=
  ∀ slot op source size, .added slot op ∈ log → .copied slot.scenario source size ∈ log →
    size ≤ slot.position

/-- What is in a slot goes back to a single slot that was filled with a new operation. -/
theorem added_unique (hborn : log.born.Nodup) (hadded : log.AddedApart) {a a' b : Slot}
    {op op' : Operation Scenario} (ha : .added a op ∈ log) (ha' : .added a' op' ∈ log)
    (h : Relation.ReflTransGen log.Fills a b) (h' : Relation.ReflTransGen log.Fills a' b) :
    a = a' := by
  -- a slot that was filled from another one holds no new operation
  have hapart : ∀ {slot op source}, .added slot op ∈ log → ¬ log.Fills source slot := by
    rintro slot op source hslot ⟨logged, lt⟩
    have hle := hadded _ _ _ _ hslot logged
    exact absurd lt (Nat.not_lt.mpr hle)
  induction h with
  | refl =>
      rcases Relation.ReflTransGen.cases_tail h' with heq | ⟨m, -, hm⟩
      · exact heq
      · exact absurd hm (hapart ha)
  | tail _ hlast ih =>
      rcases Relation.ReflTransGen.cases_tail h' with heq | ⟨m, hm, hlast'⟩
      · subst heq
        exact absurd hlast (hapart ha')
      · obtain ⟨logged, -⟩ := hlast
        obtain ⟨logged', -⟩ := hlast'
        cases eq_of_born hborn logged logged' rfl rfl
        exact ih hm

end Log

namespace World

/-! ### The invariant -/

/-- The operation at a position of a scenario goes back to a new operation, by way of the same
position of every ancestor that had it when it was copied. -/
def AccountedFor (log : Log) (s : Scenario) (position : Nat) (op : Operation Scenario) : Prop :=
  ∃ source added, .added source added ∈ log
    ∧ log.Becomes (source, added) (⟨s.identity, position⟩, op)
    ∧ ∀ a ∈ s.ancestry, position < a.boundary → ∃ inherited,
      log.Becomes (source, added) (⟨a.identity, position⟩, inherited)
        ∧ log.Becomes (⟨a.identity, position⟩, inherited) (⟨s.identity, position⟩, op)

/-- Every live scenario is as the log tells it. -/
structure Recorded (w : World) : Prop where
  bound : ∀ i ∈ w.log.born, i < w.counter
  distinct : w.log.born.Nodup
  born : ∀ s ∈ w.live, s.identity ∈ w.log.born
  once : (w.live.map Scenario.identity).Nodup
  copied : ∀ copy source size, .copied copy source size ∈ w.log → source ∈ w.log.born
  added : ∀ slot op, .added slot op ∈ w.log →
    slot.scenario ∈ w.log.born ∧ ∃ kind wait, op = .new kind wait
  apart : w.log.AddedApart
  issued : ∀ slot h, .issued slot h ∈ w.log → h = ⟨slot.scenario, slot.position⟩
    ∧ slot.scenario ∈ w.log.born
    ∧ ∀ s ∈ w.live, s.identity = slot.scenario → slot.position < s.size
  ancestry : ∀ s ∈ w.live, ∀ source size,
    ⟨source, size⟩ ∈ s.ancestry ↔ w.log.CopiedFrom s.identity source size
  boundary : ∀ s ∈ w.live, ∀ a ∈ s.ancestry, a.boundary ≤ s.size
  operations : ∀ s ∈ w.live, ∀ position op, s.operations[position]? = some op →
    AccountedFor w.log s position op

theorem initial_recorded : initial.Recorded := by
  refine ⟨?_, List.nodup_nil, ?_, List.nodup_nil, ?_, ?_, ?_, ?_, ?_, ?_, ?_⟩ <;>
    simp [initial, live, Log.born, Log.AddedApart]

theorem Recorded.eq_of_identity {w : World} (hw : w.Recorded) {s t : Scenario} (hs : s ∈ w.live)
    (ht : t ∈ w.live) (h : s.identity = t.identity) : s = t :=
  List.inj_on_of_nodup_map hw.once hs ht h

theorem AccountedFor.append {log : Log} {s : Scenario} {position : Nat} {op : Operation Scenario}
    (h : AccountedFor log s position op) (more : Log) :
    AccountedFor (log ++ more) s position op := by
  obtain ⟨source, added, hadded, hpath, hancestors⟩ := h
  refine ⟨source, added, List.mem_append_left _ hadded, hpath.append more, fun a ha hlt => ?_⟩
  obtain ⟨inherited, hto, hfrom⟩ := hancestors a ha hlt
  exact ⟨inherited, hto.append more, hfrom.append more⟩

/-- An operation stays accounted for when it is changed, and when it is copied. -/
theorem AccountedFor.turn {log : Log} {s s' : Scenario} {position : Nat}
    {op op' : Operation Scenario} (h : AccountedFor log s position op)
    (hturn : log.Turns (⟨s.identity, position⟩, op) (⟨s'.identity, position⟩, op'))
    (hancestry : ∀ a ∈ s'.ancestry, a ∈ s.ancestry ∨ a.identity = s.identity) :
    AccountedFor log s' position op' := by
  obtain ⟨source, added, hadded, hpath, hancestors⟩ := h
  refine ⟨source, added, hadded, hpath.tail hturn, fun a ha hlt => ?_⟩
  rcases hancestry a ha with ha | ha
  · obtain ⟨inherited, hto, hfrom⟩ := hancestors a ha hlt
    exact ⟨inherited, hto, hfrom.tail hturn⟩
  · rw [ha]
    exact ⟨op, hpath, .single hturn⟩

namespace Effect

variable {w w' : World} {more : Log} {fresh : List Scenario}

/-! ### What a step adds to the log -/

theorem born_eq (he : Effect w w' more fresh) :
    w'.log.born = w.log.born ++ fresh.map Scenario.identity := by
  rw [he.log, Log.born, List.filterMap_append, ← he.born]
  rfl

theorem counter_le (he : Effect w w' more fresh) : w.counter ≤ w'.counter := by
  rw [he.counter]
  exact Nat.le_add_right _ _

theorem fresh_bounds (he : Effect w w' more fresh) {s : Scenario} (hs : s ∈ fresh) :
    w.counter ≤ s.identity ∧ s.identity < w'.counter := by
  have hmem := List.mem_map_of_mem (f := Scenario.identity) hs
  rw [he.identities, List.mem_range'_1] at hmem
  rwa [he.counter]

theorem fresh_notMem (hw : w.Recorded) (he : Effect w w' more fresh) {s : Scenario}
    (hs : s ∈ fresh) : s.identity ∉ w.log.born := by
  intro hborn
  have hlt := hw.bound _ hborn
  have hle := (he.fresh_bounds hs).1
  exact absurd hlt (Nat.not_lt.mpr hle)

/-- Nothing is logged about where a scenario that was there before was copied from. -/
theorem copied_of_born (hw : w.Recorded) (he : Effect w w' more fresh) {copy source size : Nat}
    (hborn : copy ∈ w.log.born) (h : .copied copy source size ∈ w'.log) :
    .copied copy source size ∈ w.log := by
  rw [he.log] at h
  rcases List.mem_append.mp h with h | h
  · exact h
  · obtain ⟨hcopy, -⟩ := he.justified _ h
    obtain ⟨s, hs, rfl⟩ := List.mem_map.mp hcopy
    exact absurd hborn (fresh_notMem hw he hs)

theorem copiedFrom_of_born (hw : w.Recorded) (he : Effect w w' more fresh)
    {copy source size : Nat} (hborn : copy ∈ w.log.born) :
    w'.log.CopiedFrom copy source size ↔ w.log.CopiedFrom copy source size := by
  refine ⟨?_, ?_⟩
  · intro h
    induction h with
    | directly logged => exact .directly (copied_of_born hw he hborn logged)
    | further logged _ ih =>
        have hlogged := copied_of_born hw he hborn logged
        exact .further hlogged (ih (hw.copied _ _ _ hlogged))
  · intro h
    rw [he.log]
    exact h.append more

/-! ### What a step leaves true -/

theorem keeps_bound (hw : w.Recorded) (he : Effect w w' more fresh) :
    ∀ i ∈ w'.log.born, i < w'.counter := by
  intro i hi
  rw [he.born_eq] at hi
  rcases List.mem_append.mp hi with hi | hi
  · exact Nat.lt_of_lt_of_le (hw.bound i hi) he.counter_le
  · obtain ⟨s, hs, rfl⟩ := List.mem_map.mp hi
    exact (he.fresh_bounds hs).2

theorem keeps_distinct (hw : w.Recorded) (he : Effect w w' more fresh) : w'.log.born.Nodup := by
  rw [he.born_eq]
  refine List.nodup_append.mpr ⟨hw.distinct, he.identities ▸ List.nodup_range', ?_⟩
  intro i hi j hj hij
  obtain ⟨s, hs, rfl⟩ := List.mem_map.mp hj
  exact fresh_notMem hw he hs (hij ▸ hi)

theorem keeps_born (hw : w.Recorded) (he : Effect w w' more fresh) :
    ∀ s ∈ w'.live, s.identity ∈ w'.log.born := by
  intro s hs
  rw [he.born_eq]
  rcases he.origin s hs with hs | ⟨t, ht, hkept⟩
  · exact List.mem_append_right _ (List.mem_map_of_mem hs)
  · rw [hkept.identity]
    exact List.mem_append_left _ (hw.born t ht)

theorem keeps_once (hw : w.Recorded) (he : Effect w w' more fresh) :
    (w'.live.map Scenario.identity).Nodup := by
  have hall : ((fresh ++ w.live).map Scenario.identity).Nodup := by
    rw [List.map_append]
    refine List.nodup_append.mpr ⟨he.identities ▸ List.nodup_range', hw.once, ?_⟩
    intro i hi j hj hij
    obtain ⟨s, hs, rfl⟩ := List.mem_map.mp hi
    obtain ⟨t, ht, rfl⟩ := List.mem_map.mp hj
    exact fresh_notMem hw he hs (hij ▸ hw.born t ht)
  obtain ⟨part, hperm, hsub⟩ := he.once
  exact hperm.nodup_iff.mp (hall.sublist hsub)

theorem keeps_copied (hw : w.Recorded) (he : Effect w w' more fresh) :
    ∀ copy source size, .copied copy source size ∈ w'.log → source ∈ w'.log.born := by
  intro copy source size h
  rw [he.born_eq]
  rw [he.log] at h
  refine List.mem_append_left _ ?_
  rcases List.mem_append.mp h with h | h
  · exact hw.copied _ _ _ h
  · obtain ⟨-, s, hs, rfl, -⟩ := he.justified _ h
    exact hw.born s hs

theorem keeps_added (hw : w.Recorded) (he : Effect w w' more fresh) :
    ∀ slot op, .added slot op ∈ w'.log →
      slot.scenario ∈ w'.log.born ∧ ∃ kind wait, op = .new kind wait := by
  intro slot op h
  rw [he.born_eq]
  rw [he.log] at h
  rcases List.mem_append.mp h with h | h
  · obtain ⟨hborn, hnew⟩ := hw.added slot op h
    exact ⟨List.mem_append_left _ hborn, hnew⟩
  · obtain ⟨hnew, s, hs, hidentity, -⟩ := he.justified _ h
    exact ⟨List.mem_append_left _ (hidentity ▸ hw.born s hs), hnew⟩

theorem keeps_apart (hw : w.Recorded) (he : Effect w w' more fresh) : w'.log.AddedApart := by
  intro slot op source size hadded hcopied
  rw [he.log] at hadded
  rcases List.mem_append.mp hadded with hadded | hadded
  · have hborn := (hw.added slot op hadded).1
    exact hw.apart slot op source size hadded (copied_of_born hw he hborn hcopied)
  · -- the scenario grew by this operation, and has at least as many as it was copied with
    obtain ⟨-, s, hs, hidentity, hsize⟩ := he.justified _ hadded
    rw [← hidentity] at hcopied
    have hlogged := copied_of_born hw he (hw.born s hs) hcopied
    have hmem := (hw.ancestry s hs source size).mpr (.directly hlogged)
    have hle : size ≤ s.size := hw.boundary s hs _ hmem
    omega

theorem keeps_issued (hw : w.Recorded) (he : Effect w w' more fresh) :
    ∀ slot h, .issued slot h ∈ w'.log → h = ⟨slot.scenario, slot.position⟩
      ∧ slot.scenario ∈ w'.log.born
      ∧ ∀ s ∈ w'.live, s.identity = slot.scenario → slot.position < s.size := by
  intro slot h hissued
  rw [he.log] at hissued
  rcases List.mem_append.mp hissued with hissued | hissued
  · obtain ⟨hhandle, hborn, hposition⟩ := hw.issued slot h hissued
    refine ⟨hhandle, he.born_eq ▸ List.mem_append_left _ hborn, fun s hs hidentity => ?_⟩
    rcases he.origin s hs with hfresh | ⟨t, ht, hkept⟩
    · exact absurd (hidentity ▸ hborn) (fresh_notMem hw he hfresh)
    · have hlt := hposition t ht (hkept.identity ▸ hidentity)
      have hsize := hkept.size
      omega
  · obtain ⟨hhandle, s, hs, hidentity, hlt⟩ := he.justified _ hissued
    refine ⟨hhandle, hidentity ▸ keeps_born hw he s hs, fun t ht hidentity' => ?_⟩
    rwa [List.inj_on_of_nodup_map (keeps_once hw he) ht hs (hidentity'.trans hidentity.symm)]

/-- A copy was copied from its original, and from whatever that was copied from. -/
theorem copiedFrom_copy (hw : w.Recorded) (he : Effect w w' more fresh) {s copy : Scenario}
    (hs : s ∈ w.live) (hlogged : .copied copy.identity s.identity s.size ∈ w'.log)
    (source size : Nat) : w'.log.CopiedFrom copy.identity source size
      ↔ w.log.CopiedFrom s.identity source size ∨ (source = s.identity ∧ size = s.size) := by
  have honly : ∀ {via between}, .copied copy.identity via between ∈ w'.log →
      via = s.identity ∧ between = s.size := by
    intro via between h
    cases Log.eq_of_born (keeps_distinct hw he) h hlogged rfl rfl
    exact ⟨rfl, rfl⟩
  refine ⟨?_, ?_⟩
  · intro h
    cases h with
    | directly logged => exact Or.inr (honly logged)
    | further logged rest =>
        rw [(honly logged).1] at rest
        exact Or.inl ((copiedFrom_of_born hw he (hw.born s hs)).mp rest)
  · intro h
    rcases h with h | ⟨rfl, rfl⟩
    · exact .further hlogged ((copiedFrom_of_born hw he (hw.born s hs)).mpr h)
    · exact .directly hlogged

theorem keeps_ancestry (hw : w.Recorded) (he : Effect w w' more fresh) :
    ∀ s ∈ w'.live, ∀ source size,
      ⟨source, size⟩ ∈ s.ancestry ↔ w'.log.CopiedFrom s.identity source size := by
  intro s' hs' source size
  rcases he.origin s' hs' with hfresh | ⟨s, hs, hkept⟩
  · cases he.made s' hfresh with
    | created ancestry operations logged =>
        have hcreated : .created s'.identity ∈ w'.log := he.log ▸ List.mem_append_right _ logged
        rw [ancestry]
        refine iff_of_false List.not_mem_nil fun h => ?_
        cases h with
        | directly hlogged =>
            cases Log.eq_of_born (keeps_distinct hw he) hcreated hlogged rfl rfl
        | further hlogged _ =>
            cases Log.eq_of_born (keeps_distinct hw he) hcreated hlogged rfl rfl
    | @copied s _ live copyOf logged =>
        have hlogged : .copied s'.identity s.identity s.size ∈ w'.log :=
          he.log ▸ List.mem_append_right _ logged
        rw [copiedFrom_copy hw he live hlogged, ← hw.ancestry s live, copyOf.ancestry,
          List.mem_append, List.mem_singleton, Ancestor.mk.injEq]
  · rw [hkept.identity, hkept.ancestry, hw.ancestry s hs,
      copiedFrom_of_born hw he (hw.born s hs)]

theorem keeps_boundary (hw : w.Recorded) (he : Effect w w' more fresh) :
    ∀ s ∈ w'.live, ∀ a ∈ s.ancestry, a.boundary ≤ s.size := by
  intro s' hs' a ha
  rcases he.origin s' hs' with hfresh | ⟨s, hs, hkept⟩
  · cases he.made s' hfresh with
    | created ancestry operations logged =>
        rw [ancestry] at ha
        cases ha
    | @copied s _ live copyOf logged =>
        rw [copyOf.size]
        rw [copyOf.ancestry] at ha
        rcases List.mem_append.mp ha with ha | ha
        · exact hw.boundary s live a ha
        · obtain rfl := List.mem_singleton.mp ha
          exact Nat.le_refl _
  · exact Nat.le_trans (hw.boundary s hs a (hkept.ancestry ▸ ha)) hkept.size

theorem keeps_operations (hw : w.Recorded) (he : Effect w w' more fresh) :
    ∀ s ∈ w'.live, ∀ position op, s.operations[position]? = some op →
      AccountedFor w'.log s position op := by
  intro s' hs' position op' hop'
  rcases he.origin s' hs' with hfresh | ⟨s, hs, hkept⟩
  · cases he.made s' hfresh with
    | created ancestry operations logged =>
        rw [operations] at hop'
        cases hop'
    | @copied s _ live copyOf logged =>
        have hlogged : .copied s'.identity s.identity s.size ∈ w'.log :=
          he.log ▸ List.mem_append_right _ logged
        obtain ⟨hlt', rfl⟩ := List.getElem?_eq_some_iff.mp hop'
        have hlt : position < s.operations.length := copyOf.operations.length_eq ▸ hlt'
        have hcopy := (List.forall₂_iff_get.mp copyOf.operations).2 position hlt hlt'
        have hold : AccountedFor w'.log s position s.operations[position] :=
          he.log ▸ (hw.operations s live position _ (List.getElem?_eq_getElem hlt)).append more
        refine hold.turn (.copied ⟨hlogged, hlt⟩ hcopy) fun a ha => ?_
        rw [copyOf.ancestry] at ha
        rcases List.mem_append.mp ha with ha | ha
        · exact Or.inl ha
        · rw [List.mem_singleton.mp ha]
          exact Or.inr rfl
  · rcases hkept.operations position op' hop' with ⟨op, hop, hchanged⟩ | ⟨hle, hadded⟩
    · have hold : AccountedFor w'.log s position op :=
        he.log ▸ (hw.operations s hs position op hop).append more
      rcases hchanged with rfl | ⟨c, hlogged, happly⟩
      · -- the same operation, in a scenario of the same identity and ancestry
        obtain ⟨source, added, hadded, hpath, hancestors⟩ := hold
        rw [← hkept.identity] at hpath hancestors
        exact ⟨source, added, hadded, hpath, hkept.ancestry ▸ hancestors⟩
      · refine hold.turn ?_ fun a ha => Or.inl (hkept.ancestry ▸ ha)
        rw [hkept.identity]
        exact .changed (he.log ▸ List.mem_append_right _ hlogged) happly
    · refine ⟨⟨s.identity, position⟩, op', he.log ▸ List.mem_append_right _ hadded, ?_, ?_⟩
      · rw [hkept.identity]
      · -- no ancestor can have had an operation that was added just now
        intro a ha hlt
        have hboundary := hw.boundary s hs a (hkept.ancestry ▸ ha)
        omega

end Effect

/-! ### Along histories -/

theorem Step.recorded {w w' : World} (h : Step w w') (hw : w.Recorded) : w'.Recorded := by
  obtain ⟨more, fresh, he⟩ := h.effect
  exact ⟨he.keeps_bound hw, he.keeps_distinct hw, he.keeps_born hw, he.keeps_once hw,
    he.keeps_copied hw, he.keeps_added hw, he.keeps_apart hw, he.keeps_issued hw,
    he.keeps_ancestry hw, he.keeps_boundary hw, he.keeps_operations hw⟩

theorem Leads.recorded {w w' : World} (h : w.Leads w') (hw : w.Recorded) : w'.Recorded := by
  induction h with
  | refl => exact hw
  | tail _ step ih => exact step.recorded ih

theorem Reachable.recorded {w : World} (h : w.Reachable) : w.Recorded :=
  Leads.recorded h initial_recorded

/-- What is true of new operations, and stays true when they are changed and copied, is true of
all operations that there are. -/
theorem Reachable.each_operation {P : Operation Scenario → Prop}
    (hnew : ∀ kind wait, P (.new kind wait))
    (hchange : ∀ {c : Change} {op op' : Operation Scenario}, c.apply op = .ok op' → P op → P op')
    (hcopy : ∀ {op : Operation Scenario} (s : Scenario), P op → P (op.withEmbedded s))
    {w : World} (hw : w.Reachable) {s : Scenario} (hs : s ∈ w.live) : ∀ op ∈ s.operations, P op := by
  intro op hop
  obtain ⟨i, hi⟩ := List.mem_iff_getElem?.mp hop
  obtain ⟨source, added, hadded, hpath, -⟩ := hw.recorded.operations s hs i op hi
  obtain ⟨-, kind, wait, rfl⟩ := hw.recorded.added source added hadded
  exact Log.Becomes.keeps hchange hcopy hpath (hnew kind wait)

end World

end Testbed

/-
What the waits of a document are made of.

A wait is put together by adding handles one by one, and to add a handle that is there
already changes nothing.  So each of its two lists is the sequence of handles that were
added, collapsed to their first places.  Building puts the number of its operation in the
place of each handle.

Handles are collapsed, and numbers are not.  A copy owns handles of its own and those that
its ancestors issued, so several handles may point at one operation, and the number of that
operation stands in a wait once for each of them that was added.  In a scenario that is no
copy there is one handle for each operation, and no number is repeated.
-/
import Testbed.Proofs.FirstPlaces
import Testbed.Proofs.Scenario.Buildable
import Testbed.Proofs.Scenario.Ownership
import Testbed.Proofs.Scenario.Stored

namespace Testbed

open FirstPlaces

namespace Wait

/-! ### What a wait is made of -/

/-- A wait was put together by adding these handles to its lists, in this order. -/
inductive MadeOf : (launched finished : List Handle) → Wait → Prop
  | immediate : MadeOf [] [] .immediate
  | launched {launched finished : List Handle} {w : Wait} (h : Handle)
      (made : MadeOf launched finished w) : MadeOf (launched ++ [h]) finished (w.addLaunched h)
  | finished {launched finished : List Handle} {w : Wait} (h : Handle)
      (made : MadeOf launched finished w) : MadeOf launched (finished ++ [h]) (w.addFinished h)
  | delayed {launched finished : List Handle} {w : Wait} (delay : Duration)
      (made : MadeOf launched finished w) : MadeOf launched finished (w.withDelay delay)

theorem Made.exists_madeOf {w : Wait} (h : w.Made) :
    ∃ launched finished, MadeOf launched finished w := by
  induction h with
  | immediate => exact ⟨[], [], .immediate⟩
  | launched h _ ih =>
      obtain ⟨launched, finished, made⟩ := ih
      exact ⟨_, _, made.launched h⟩
  | finished h _ ih =>
      obtain ⟨launched, finished, made⟩ := ih
      exact ⟨_, _, made.finished h⟩
  | delayed delay _ ih =>
      obtain ⟨launched, finished, made⟩ := ih
      exact ⟨_, _, made.delayed delay⟩

theorem addTo_eraseDups (added : List Handle) (h : Handle) :
    addTo added.eraseDups h = (added ++ [h]).eraseDups :=
  add_eraseDups added h

/-- **The lists of a wait are the handles that were added, each in its first place.** -/
theorem MadeOf.lists {launched finished : List Handle} {w : Wait}
    (h : MadeOf launched finished w) :
    w.launched = launched.eraseDups ∧ w.finished = finished.eraseDups := by
  induction h with
  | immediate => exact ⟨rfl, rfl⟩
  | @launched launched _ w h _ ih =>
      refine ⟨?_, ih.2⟩
      rw [← addTo_eraseDups, ← ih.1]
      rfl
  | @finished _ finished w h _ ih =>
      refine ⟨ih.1, ?_⟩
      rw [← addTo_eraseDups, ← ih.2]
      rfl
  | delayed delay _ ih => exact ih

end Wait

/-! ### Waits along histories -/

/-- A change leaves the wait alone or puts in the one that it brings. -/
theorem Change.apply_wait {c : Change} {op op' : Operation Scenario} (h : c.apply op = .ok op') :
    op'.wait = op.wait ∨ c = .wait op'.wait := by
  cases c with
  | wait w =>
      cases h
      exact Or.inr rfl
  | payload p =>
      obtain ⟨-, rfl⟩ := Operation.configure_eq_ok.mp h
      exact Or.inl rfl
  | condition condition =>
      simp only [apply, Operation.configureCondition] at h
      split at h
      · obtain ⟨-, rfl⟩ := Operation.configure_eq_ok.mp h
        exact Or.inl rfl
      · obtain ⟨-, rfl⟩ := Operation.configure_eq_ok.mp h
        exact Or.inl rfl
  | body body handles =>
      obtain ⟨_, -, heq⟩ := Outcome.bind_eq_ok.mp h
      cases body <;> cases heq <;> exact Or.inl rfl
  | label text =>
      cases h
      exact Or.inl rfl

theorem Operation.wait_withEmbedded {σ : Type} (op : Operation σ) (s : σ) :
    (op.withEmbedded s).wait = op.wait := by
  unfold withEmbedded
  split <;> rfl

theorem Log.Becomes.wait_made {log : Log} (hlog : ∀ e ∈ log, log.Brought e)
    {a b : Slot × Operation Scenario} (h : log.Becomes a b) (ha : a.2.wait.Made) :
    b.2.wait.Made := by
  induction h with
  | refl => exact ha
  | tail _ turn ih =>
      cases turn with
      | changed logged done =>
          rcases Change.apply_wait done with hwait | rfl
          · exact hwait ▸ ih
          · exact (hlog _ logged).2 _ rfl
      | copied _ made =>
          obtain ⟨s, rfl⟩ := made
          rw [Operation.wait_withEmbedded]
          exact ih

namespace World

/-- The wait of every operation was put together by adding handles. -/
theorem Reachable.wait_made {w : World} (hw : w.Reachable) {s : Scenario} (hs : s ∈ w.live)
    {position : Nat} {op : Operation Scenario} (hop : s.operations[position]? = some op) :
    op.wait.Made := by
  obtain ⟨source, added, hadded, hpath, -⟩ := hw.recorded.operations s hs position op hop
  obtain ⟨kind, wait, rfl, hmade, -⟩ := hw.brought _ hadded
  exact Log.Becomes.wait_made hw.brought hpath hmade

end World

/-! ### Numbers -/

namespace Scenario

/-- The scenario and its ancestors that had the operation at a position. -/
def issuersOf (s : Scenario) (position : Nat) : List Nat :=
  s.identity :: (s.ancestry.filter fun a => position < a.boundary).map Ancestor.identity

/-- A handle that is owned was issued by the scenario or by an ancestor that had the operation. -/
theorem issuer_mem {s : Scenario} {h : Handle} (howns : s.owns h = true) :
    h.scenario ∈ s.issuersOf h.index := by
  obtain ⟨-, hissuer⟩ := (owns_iff s h).mp howns
  rcases hissuer with hown | ⟨a, ha, hidentity, hboundary⟩
  · exact hown ▸ List.mem_cons_self
  · refine List.mem_cons_of_mem _ (List.mem_map.mpr ⟨a, ?_, hidentity⟩)
    exact List.mem_filter.mpr ⟨ha, by simpa using hboundary⟩

/-- Of different handles that are owned, no more have one number than scenarios issued them. -/
theorem count_index_le {s : Scenario} {handles : List Handle} (hnodup : handles.Nodup)
    (howned : ∀ h ∈ handles, s.owns h = true) (id : Nat) :
    (handles.map Handle.index).count id ≤ (s.issuersOf id).length := by
  have hsame : ∀ h ∈ handles.filter (fun h => h.index == id), h ∈ handles ∧ h.index = id := by
    intro h hh
    rw [List.mem_filter, beq_iff_eq] at hh
    exact hh
  have hinj : ((handles.filter fun h => h.index == id).map Handle.scenario).Nodup := by
    refine (List.nodup_map_iff_inj_on (hnodup.filter _)).mpr ?_
    intro a ha b hb hscenario
    have hindex : a.index = b.index := (hsame a ha).2.trans (hsame b hb).2.symm
    cases a
    cases b
    simp only at hscenario hindex
    rw [hscenario, hindex]
  have hsub : (handles.filter fun h => h.index == id).map Handle.scenario ⊆ s.issuersOf id := by
    intro i hi
    obtain ⟨h, hh, rfl⟩ := List.mem_map.mp hi
    obtain ⟨hmem, rfl⟩ := hsame h hh
    exact issuer_mem (howned h hmem)
  have hle := (List.subperm_of_subset hinj hsub).length_le
  rw [List.length_map, ← List.countP_eq_length_filter] at hle
  rw [List.count, List.countP_map]
  exact hle

/-- What stands in a wait for the handles that were added to it. -/
structure Collapsed (s : Scenario) (added : List Handle) (ids : List Nat) : Prop where
  /-- Handles are collapsed, in the order in which they were first added. -/
  eq : ids = added.eraseDups.map Handle.index
  owned : ∀ h ∈ added, s.owns h = true
  /-- A number is repeated at most once for each scenario that issued a handle for it. -/
  count_le : ∀ id, ids.count id ≤ (s.issuersOf id).length
  /-- No number is repeated exactly if no operation was named by two handles. -/
  nodup_iff : ids.Nodup ↔ ∀ a ∈ added, ∀ b ∈ added, a.index = b.index → a = b
  /-- Then, and only then, it is the numbers that are collapsed. -/
  byNumber_iff : ids = (added.map Handle.index).eraseDups ↔ ids.Nodup
  /-- In a scenario that is no copy it always is. -/
  original : s.ancestry = [] → ids = (added.map Handle.index).eraseDups

theorem Collapsed.of_owned {s : Scenario} {added : List Handle}
    (howned : ∀ h ∈ added, s.owns h = true) :
    s.Collapsed added (added.eraseDups.map Handle.index) := by
  have hcount : ∀ id, (added.eraseDups.map Handle.index).count id ≤ (s.issuersOf id).length :=
    count_index_le (nodup_eraseDups added) fun h hh => howned h (List.mem_eraseDups.mp hh)
  refine ⟨rfl, howned, hcount, nodup_map_eraseDups_iff _ _, map_eraseDups_eq_iff _ _,
    fun horiginal => ?_⟩
  rw [map_eraseDups_eq_iff, List.nodup_iff_count_le_one]
  intro id
  have hle := hcount id
  rw [issuersOf, horiginal] at hle
  exact hle

/--
**In the waits of a document handles are collapsed, and not numbers.**

Every wait was put together by adding handles of the scenario, and its lists are the numbers of
these handles in the order in which each was first added.  A number comes as often as different
handles for its operation were added: never more often than there are scenarios, the scenario
itself and its ancestors, that issued one.  Where every operation was named by one handle only,
which is always so in a scenario that is no copy, no number is repeated.
-/
theorem build_waits {s : Scenario} (h : s.Reachable) {d : Document} (hd : s.build = .ok d)
    {i : Nat} {f : Document.Function} (hf : d.functions[i]? = some f) :
    ∃ op, s.operations[i]? = some op
      ∧ (∃ launched finished, Wait.MadeOf launched finished op.wait)
      ∧ ∀ launched finished, Wait.MadeOf launched finished op.wait →
        s.Collapsed launched f.wait.launched ∧ s.Collapsed finished f.wait.finished := by
  obtain ⟨w, hw, hs⟩ := h
  obtain ⟨-, hready, -⟩ := build_eq_ok.mp hd
  obtain ⟨op, -, action, hop, -, -, rfl⟩ := operation_of_build hd hf
  refine ⟨_, hop, (hw.wait_made hs hop).exists_madeOf, fun launched finished hmade => ?_⟩
  obtain ⟨hlaunched, hfinished⟩ := hmade.lists
  have howned := List.forall_mem_append.mp (hready i op hop)
  rw [hlaunched, hfinished] at howned
  refine ⟨?_, ?_⟩
  · rw [Wait.built, hlaunched]
    exact .of_owned fun h hh => (howned.1 h (List.mem_eraseDups.mpr hh)).1
  · rw [Wait.built, hfinished]
    exact .of_owned fun h hh => (howned.2 h (List.mem_eraseDups.mpr hh)).1

/-- A reboot of one agent. -/
def rebootPlain (wait : Wait) : Operation Scenario :=
  ⟨.reboot, none, some (.reboot (.literal (.string "agent"))), wait, [], []⟩

/-- A scenario with one reboot. -/
def rebootOnce (identity : Nat) (ancestry : List Ancestor) : Scenario :=
  ⟨identity, ancestry, "Reboot", "", [], [], [rebootPlain .immediate]⟩

/-- A copy of a scenario with one reboot.  Another one waits for it under the handle that the
original issued and under the one that the copy issued. -/
def rebootTwice : Scenario :=
  ⟨2, [⟨1, 1⟩], "Reboot", "", [], [],
    [rebootPlain .immediate, rebootPlain ⟨.zero, [⟨1, 0⟩, ⟨2, 0⟩], []⟩]⟩

theorem rebootTwice_madeOf :
    Wait.MadeOf [⟨1, 0⟩, ⟨2, 0⟩] [] ⟨.zero, [⟨1, 0⟩, ⟨2, 0⟩], []⟩ :=
  (Wait.MadeOf.immediate.launched ⟨1, 0⟩).launched ⟨2, 0⟩

/-- A scenario with one reboot was made. -/
def rebootMade : World :=
  ⟨2, [rebootOnce 1 []], [.created 1, .added ⟨1, 0⟩ (.new .reboot .immediate),
    .issued ⟨1, 0⟩ ⟨1, 0⟩, .changed ⟨1, 0⟩ (.payload (.reboot (.literal (.string "agent"))))]⟩

theorem rebootMade_reachable : rebootMade.Reachable :=
  rebootOfMade_reachable [] (.literal (.string "agent"))

theorem rebootTwice_reachable : rebootTwice.Reachable := by
  have hcopy := rebootMade_reachable.trans (World.leads_copy rfl)
  have hlist : World.initial.Leads ⟨3, [rebootOnce 2 [⟨1, 1⟩], rebootOnce 1 []],
      rebootMade.log ++ [.copied 2 1 1] ++ [.issued ⟨2, 0⟩ ⟨2, 0⟩]⟩ :=
    hcopy.tail (.list (s := rebootOnce 2 [⟨1, 1⟩])
      (List.mem_flatMap.mpr ⟨_, List.mem_cons_self, mem_family_self _⟩) rfl)
  have htwo := hlist.trans (World.leads_withLast .reboot
    ((Wait.Made.immediate.launched ⟨1, 0⟩).launched ⟨2, 0⟩)
    (List.forall_mem_cons.mpr ⟨⟨⟨1, 0⟩, by simp [rebootMade]⟩,
      List.forall_mem_singleton.mpr ⟨⟨2, 0⟩, by simp⟩⟩)
    [.payload (.reboot (.literal (.string "agent")))]
    (List.forall_mem_singleton.mpr (Log.offers_payload (List.forall_mem_nil _))) rfl)
  exact World.Reachable.scenario htwo

/-- The document of the copy. -/
def rebootTwiceDocument : Document :=
  ⟨"Reboot", "", [], [], [⟨0, "#0", .reboot (.string "agent"), .immediate⟩,
    ⟨1, "#1", .reboot (.string "agent"), ⟨.integer 0, [0, 0], []⟩⟩]⟩

theorem rebootTwice_build : rebootTwice.build = .ok rebootTwiceDocument := by cbv

/-- Two scenarios issued handles for the first operation, and both of these were added. -/
theorem rebootTwice_collapsed :
    rebootTwice.Collapsed [⟨1, 0⟩, ⟨2, 0⟩] [0, 0] ∧ rebootTwice.issuersOf 0 = [2, 1] := by
  obtain ⟨op, hop, -, hall⟩ :=
    build_waits rebootTwice_reachable rebootTwice_build (i := 1) (f := ⟨1, "#1",
      .reboot (.string "agent"), ⟨.integer 0, [0, 0], []⟩⟩) rfl
  cases hop
  exact ⟨(hall _ _ rebootTwice_madeOf).1, by decide⟩

/-- The wait names one operation twice, though its number could have been collapsed. -/
theorem rebootTwice_repeated : rebootTwice.Reachable ∧ ∃ d f op,
    rebootTwice.build = .ok d ∧ d.functions[1]? = some f
      ∧ rebootTwice.operations[1]? = some op ∧ Wait.MadeOf [⟨1, 0⟩, ⟨2, 0⟩] [] op.wait
      ∧ ¬ f.wait.launched.Nodup
      ∧ f.wait.launched ≠ ([(⟨1, 0⟩ : Handle), ⟨2, 0⟩].map Handle.index).eraseDups :=
  ⟨rebootTwice_reachable, rebootTwiceDocument, _, _, rebootTwice_build, rfl, rfl,
    rebootTwice_madeOf, by decide, by decide⟩

end Scenario

end Testbed

/-
Which handles a scenario owns, and what they point at.

The ancestry that a scenario carries is what the log says about it, so it owns what it
issued and what its ancestors issued before they were copied, and nothing else; and an
operation that it owns a handle to is what became of the one that the handle was issued
for.  No later step takes a handle away from a scenario.
-/
import Testbed.Proofs.Scenario.Provenance

namespace Testbed

namespace World

/-! ### Handles that stay owned -/

/-- A scenario that a step does not let go of owns all that it owned. -/
theorem Kept.owns {more : Log} {s s' : Scenario} (hkept : Kept more s s') {h : Handle}
    (howns : s.owns h = true) : s'.owns h = true := by
  rw [Scenario.owns_iff] at howns ⊢
  rw [hkept.identity, hkept.ancestry]
  exact ⟨Nat.lt_of_lt_of_le howns.1 hkept.size, howns.2⟩

theorem Leads.owns {w w' : World} (hleads : w.Leads w') (hw : w.Recorded) {s : Scenario}
    (hs : s ∈ w.live) {h : Handle} (howns : s.owns h = true) :
    s.identity ∈ w'.log.born
      ∧ ∀ s' ∈ w'.live, s'.identity = s.identity → s'.owns h = true := by
  induction hleads with
  | refl =>
      refine ⟨hw.born s hs, fun s' hs' hidentity => ?_⟩
      rwa [hw.eq_of_identity hs' hs hidentity]
  | tail before step ih =>
      obtain ⟨hborn, hall⟩ := ih
      obtain ⟨more, fresh, he⟩ := step.effect
      refine ⟨he.born_eq ▸ List.mem_append_left _ hborn, fun s' hs' hidentity => ?_⟩
      -- a new scenario does not have the identity of one that was there before
      rcases he.origin s' hs' with hfresh | ⟨t, ht, hkept⟩
      · exact absurd (hidentity ▸ hborn) (Effect.fresh_notMem (Leads.recorded before hw) he hfresh)
      · exact hkept.owns (hall t ht (hkept.identity ▸ hidentity))

/-! ### Handles that were issued -/

variable {w : World} {s : Scenario} {slot : Slot} {h : Handle}

/-- A scenario owns what it issued, and what its ancestors issued before they were copied. -/
theorem Recorded.owns_iff (hw : w.Recorded) (hs : s ∈ w.live) (hissued : .issued slot h ∈ w.log) :
    s.owns h = true ↔ slot.scenario = s.identity
      ∨ ∃ size, w.log.CopiedFrom s.identity slot.scenario size ∧ h.index < size := by
  obtain ⟨rfl, -, hposition⟩ := hw.issued slot h hissued
  rw [Scenario.owns_iff]
  refine ⟨?_, ?_⟩
  · intro h
    obtain ⟨-, hown | ⟨⟨source, size⟩, ha, rfl, hlt⟩⟩ := h
    · exact Or.inl hown
    · exact Or.inr ⟨size, (hw.ancestry s hs _ size).mp ha, hlt⟩
  · intro h
    rcases h with hown | ⟨size, hfrom, hlt⟩
    · exact ⟨hposition s hs hown.symm, Or.inl hown⟩
    · have ha := (hw.ancestry s hs slot.scenario size).mpr hfrom
      have hboundary : size ≤ s.size := hw.boundary s hs _ ha
      exact ⟨Nat.lt_of_lt_of_le hlt hboundary, Or.inr ⟨_, ha, rfl, hlt⟩⟩

/-- What a scenario has at the position of a handle that it owns became of the operation that the
handle was issued for. -/
theorem Recorded.becomes (hw : w.Recorded) (hs : s ∈ w.live) (hissued : .issued slot h ∈ w.log)
    (howns : s.owns h = true) : ∃ op source added inherited, s.operations[h.index]? = some op
      ∧ .added source added ∈ w.log
      ∧ w.log.Becomes (source, added) (slot, inherited)
      ∧ w.log.Becomes (slot, inherited) (⟨s.identity, h.index⟩, op) := by
  obtain ⟨rfl, -, -⟩ := hw.issued slot h hissued
  obtain ⟨hlt, howner⟩ := (Scenario.owns_iff s _).mp howns
  have hop := List.getElem?_eq_getElem hlt
  obtain ⟨source, added, hadded, hpath, hancestors⟩ := hw.operations s hs _ _ hop
  rcases howner with hown | ⟨a, ha, hidentity, hboundary⟩
  · refine ⟨_, source, added, s.operations[slot.position], hop, hadded, ?_, ?_⟩
    · rw [← hown] at hpath
      exact hpath
    · rw [← hown]
  · obtain ⟨inherited, hto, hfrom⟩ := hancestors a ha hboundary
    rw [hidentity] at hto hfrom
    exact ⟨_, source, added, inherited, hop, hadded, hto, hfrom⟩

/--
**A scenario owns the handles of its own operations and of those that it inherited.**

Of all handles that were ever issued, a live scenario owns those that it issued itself, and
those that an ancestor issued for an operation that it had when it was copied.  The operation
at the position of such a handle is what became, by changes and copies, of the operation that
the handle was issued for, and no other new operation could have become it.  However the
history goes on, the scenario keeps owning the handle.  Identities tell scenarios apart: none
is given out twice.
-/
theorem owns_issued (hw : w.Reachable) (hs : s ∈ w.live) (hissued : .issued slot h ∈ w.log) :
    (w.log.born.Nodup ∧ ∀ t ∈ w.live, t.identity = s.identity → t = s)
      ∧ (s.owns h = true ↔ slot.scenario = s.identity
        ∨ ∃ size, w.log.CopiedFrom s.identity slot.scenario size ∧ h.index < size)
      ∧ (s.owns h = true → ∃ op source added inherited, s.operations[h.index]? = some op
        ∧ .added source added ∈ w.log
        ∧ w.log.Becomes (source, added) (slot, inherited)
        ∧ w.log.Becomes (slot, inherited) (⟨s.identity, h.index⟩, op)
        ∧ ∀ other op', .added other op' ∈ w.log →
          Relation.ReflTransGen w.log.Fills other ⟨s.identity, h.index⟩ → other = source)
      ∧ (s.owns h = true → ∀ w', w.Leads w' → ∀ s' ∈ w'.live, s'.identity = s.identity →
        s'.owns h = true) := by
  have hrec := hw.recorded
  refine ⟨⟨hrec.distinct, fun t ht hidentity => hrec.eq_of_identity ht hs hidentity⟩,
    hrec.owns_iff hs hissued, fun howns => ?_,
    fun howns w' hleads => (Leads.owns hleads hrec hs howns).2⟩
  obtain ⟨op, source, added, inherited, hop, hadded, hto, hfrom⟩ := hrec.becomes hs hissued howns
  refine ⟨op, source, added, inherited, hop, hadded, hto, hfrom, fun other op' hother hfills => ?_⟩
  exact Log.added_unique hrec.distinct hrec.apart hother hadded hfills
    (Log.Becomes.fills (hto.trans hfrom))

/-! ### A line of copies -/

/-- A scenario of the line, with the operations that it has by now. -/
def relative (identity : Nat) (ancestry : List Ancestor) (operations : List (Operation Scenario)) :
    Scenario :=
  ⟨identity, ancestry, "Reboot", "", [], [], operations⟩

/-- A reboot with a label. -/
def labelled (text : String) : Operation Scenario := ⟨.reboot, some text, none, .immediate, [], []⟩

/-- A copy of a copy.  The first copy was made of a scenario with one operation, labelled it anew
and added another one before it was copied itself. -/
def grandchild : Scenario :=
  relative 3 [⟨1, 1⟩, ⟨2, 2⟩] [labelled "again", .new .stopJob .immediate]

/-- A second copy of the first scenario, made when it had two operations. -/
def younger : Scenario := relative 4 [⟨1, 2⟩] [labelled "first", .new .loop .immediate]

/-- The line with everything that has happened in it. -/
def lineage : World :=
  ⟨5, [younger, relative 1 [] [labelled "first", .new .loop .immediate],
      relative 2 [⟨1, 1⟩] [labelled "again", .new .stopJob .immediate], grandchild],
    [.created 1, .added ⟨1, 0⟩ (.new .reboot .immediate), .issued ⟨1, 0⟩ ⟨1, 0⟩,
      .changed ⟨1, 0⟩ (.label "first"), .copied 2 1 1, .changed ⟨2, 0⟩ (.label "again"),
      .added ⟨2, 1⟩ (.new .stopJob .immediate), .issued ⟨2, 1⟩ ⟨2, 1⟩, .copied 3 2 2,
      .added ⟨1, 1⟩ (.new .loop .immediate), .issued ⟨1, 1⟩ ⟨1, 1⟩, .copied 4 1 2]⟩

theorem lineage_reachable : lineage.Reachable := by
  have hcreate : initial.Leads ⟨2, [relative 1 [] []], [.created 1]⟩ :=
    .single (.create "Reboot" "" rfl)
  have hfirst := hcreate.trans (leads_withLast .reboot .immediate (Log.issued_immediate _)
    [.label "first"] (List.forall_mem_singleton.mpr (Log.offers_label _)) rfl)
  have helder : initial.Leads ⟨3, [relative 2 [⟨1, 1⟩] [labelled "first"],
      relative 1 [] [labelled "first"]], _⟩ :=
    hfirst.trans (leads_copy rfl)
  -- the copy answers to the handle that the original issued
  have hagain := helder.tail (.change (h := ⟨1, 0⟩) (c := .label "again")
    (Log.Issued.append Log.issued_logLast _) (Log.offers_label _) rfl)
  have hstop := hagain.trans (leads_withLast .stopJob .immediate (Log.issued_immediate _) []
    (List.forall_mem_nil _) rfl)
  have hgrandchild : initial.Leads ⟨4, [grandchild,
      relative 2 [⟨1, 1⟩] [labelled "again", .new .stopJob .immediate],
      relative 1 [] [labelled "first"]], _⟩ :=
    hstop.trans (leads_copy rfl)
  have hturned := hgrandchild.tail (.reorder (List.reverse_perm _).symm)
  have hloop := hturned.trans (leads_withLast .loop .immediate (Log.issued_immediate _) []
    (List.forall_mem_nil _) rfl)
  exact hloop.trans (leads_copy rfl)

/-- The copy of the copy owns the handles that the first scenario and the first copy issued before
they were copied, and not the one that the first scenario issued afterwards; its first operation
is what became of the first one ever added.  The second copy owns that later handle, and not the
one of the first copy. -/
theorem lineage_owned :
    (grandchild.owns ⟨1, 0⟩ = true ∧ (∃ size, lineage.log.CopiedFrom 3 1 size ∧ 0 < size)
      ∧ lineage.log.Becomes (⟨1, 0⟩, .new .reboot .immediate) (⟨3, 0⟩, labelled "again"))
    ∧ (grandchild.owns ⟨2, 1⟩ = true ∧ ∃ size, lineage.log.CopiedFrom 3 2 size ∧ 1 < size)
    ∧ (grandchild.owns ⟨1, 1⟩ = false ∧ ¬ ∃ size, lineage.log.CopiedFrom 3 1 size ∧ 1 < size)
    ∧ (younger.owns ⟨1, 1⟩ = true ∧ ∃ size, lineage.log.CopiedFrom 4 1 size ∧ 1 < size)
    ∧ (younger.owns ⟨2, 1⟩ = false ∧ ¬ ∃ size, lineage.log.CopiedFrom 4 2 size ∧ 1 < size)
    ∧ ∀ w', lineage.Leads w' → ∀ s' ∈ w'.live,
      (s'.identity = 3 → s'.owns ⟨1, 0⟩ = true) ∧ (s'.identity = 4 → s'.owns ⟨1, 1⟩ = true) := by
  have hgrandchild : grandchild ∈ lineage.live :=
    List.mem_flatMap.mpr ⟨grandchild, by simp [lineage], Scenario.mem_family_self _⟩
  have hyounger : younger ∈ lineage.live :=
    List.mem_flatMap.mpr ⟨younger, List.mem_cons_self, Scenario.mem_family_self _⟩
  have hfirst : .issued ⟨1, 0⟩ ⟨1, 0⟩ ∈ lineage.log := by simp [lineage]
  have hsecond : .issued ⟨1, 1⟩ ⟨1, 1⟩ ∈ lineage.log := by simp [lineage]
  have hstop : .issued ⟨2, 1⟩ ⟨2, 1⟩ ∈ lineage.log := by simp [lineage]
  have hgrandfather : grandchild.owns ⟨1, 0⟩ = true := by decide
  have hparent : grandchild.owns ⟨2, 1⟩ = true := by decide
  have hsibling : younger.owns ⟨1, 1⟩ = true := by decide
  obtain ⟨-, hinherits, hbecame, hkeeps⟩ := owns_issued lineage_reachable hgrandchild hfirst
  obtain ⟨-, hinheritsStop, -, -⟩ := owns_issued lineage_reachable hgrandchild hstop
  obtain ⟨-, hmisses, -, -⟩ := owns_issued lineage_reachable hgrandchild hsecond
  obtain ⟨-, hinherits', -, hkeeps'⟩ := owns_issued lineage_reachable hyounger hsecond
  obtain ⟨-, hmisses', -, -⟩ := owns_issued lineage_reachable hyounger hstop
  refine ⟨⟨hgrandfather, (hinherits.mp hgrandfather).resolve_left (by decide), ?_⟩,
    ⟨hparent, (hinheritsStop.mp hparent).resolve_left (by decide)⟩,
    ⟨by decide, fun h => absurd (hmisses.mpr (Or.inr h)) (by decide)⟩,
    ⟨hsibling, (hinherits'.mp hsibling).resolve_left (by decide)⟩,
    ⟨by decide, fun h => absurd (hmisses'.mpr (Or.inr h)) (by decide)⟩,
    fun w' hleads s' hs' => ⟨hkeeps hgrandfather w' hleads s' hs',
      hkeeps' hsibling w' hleads s' hs'⟩⟩
  obtain ⟨op, source, added, inherited, hop, hadded, hto, hfrom, hunique⟩ := hbecame hgrandfather
  -- only the reboot that was added to the first scenario can be what the handle points at
  have hsource : (⟨1, 0⟩ : Slot) = source :=
    hunique ⟨1, 0⟩ (.new .reboot .immediate) (by simp [lineage]) (Log.Becomes.fills hfrom)
  subst hsource
  have hreboot : added = .new .reboot .immediate := by simpa [lineage] using hadded
  rw [← hreboot, show labelled "again" = op from Option.some.inj hop]
  exact hto.trans hfrom

end World

end Testbed

/-
Steps that may fail.

A sequence of steps gives a result exactly if each step gives one, the later ones on
what the earlier ones gave.  With that a definition in steps can be taken apart at its
result without being opened.
-/
import Mathlib.Data.List.Forall2

namespace Testbed.Outcome

variable {ε α β : Type}

theorem bind_eq_ok {x : Except ε α} {f : α → Except ε β} {b : β} :
    x >>= f = .ok b ↔ ∃ a, x = .ok a ∧ f a = .ok b := by
  cases x with
  | ok a =>
      refine ⟨?_, ?_⟩
      · intro h
        exact ⟨a, rfl, h⟩
      · intro h
        obtain ⟨_, ha, h⟩ := h
        cases ha
        exact h
  | error e =>
      refine ⟨?_, ?_⟩
      · intro h
        cases h
      · intro h
        obtain ⟨_, ha, _⟩ := h
        cases ha

theorem bind_eq_error {x : Except ε α} {f : α → Except ε β} {e : ε} :
    x >>= f = .error e ↔ x = .error e ∨ ∃ a, x = .ok a ∧ f a = .error e := by
  cases x with
  | ok a =>
      refine ⟨?_, ?_⟩
      · intro h
        exact Or.inr ⟨a, rfl, h⟩
      · intro h
        rcases h with h | ⟨_, ha, h⟩
        · cases h
        · cases ha
          exact h
  | error e' =>
      refine ⟨?_, ?_⟩
      · intro h
        cases h
        exact Or.inl rfl
      · intro h
        rcases h with h | ⟨_, ha, _⟩
        · cases h
          rfl
        · cases ha

theorem pure_eq_ok {a b : α} : (pure a : Except ε α) = .ok b ↔ a = b :=
  ⟨fun h => by cases h; rfl, fun h => by rw [h]; rfl⟩

theorem map_eq_ok {x : Except ε α} {f : α → β} {b : β} :
    x.map f = .ok b ↔ ∃ a, x = .ok a ∧ f a = b := by
  cases x with
  | ok a => simp [Except.map]
  | error e => simp [Except.map]

/-- What is done with a changed result may be done with the result, and changed then. -/
theorem map_bind {γ δ : Type} {x : Except ε α} {g : α → β} {f : α → Except ε γ}
    {f' : β → Except ε δ} {k : γ → δ} (h : ∀ a, f' (g a) = (f a).map k) :
    x.map g >>= f' = (x >>= f).map k := by
  cases x with
  | ok a => exact h a
  | error e => rfl

theorem bind_map {γ δ : Type} {x : Except ε α} {f : α → Except ε γ} {f' : α → Except ε δ}
    {k : γ → δ} (h : ∀ a, f' a = (f a).map k) : x >>= f' = (x >>= f).map k := by
  cases x with
  | ok a => exact h a
  | error e => rfl

/-- A step on every item gives the results of the steps, in order. -/
theorem mapM_eq_ok {f : α → Except ε β} : ∀ {items : List α} {results : List β},
    items.mapM f = .ok results ↔ List.Forall₂ (fun a b => f a = .ok b) items results := by
  intro items
  induction items with
  | nil =>
      intro results
      rw [List.mapM_nil, pure_eq_ok, List.forall₂_nil_left_iff]
      exact eq_comm
  | cons a rest ih =>
      intro results
      rw [List.mapM_cons, bind_eq_ok, List.forall₂_cons_left_iff]
      simp only [bind_eq_ok, pure_eq_ok, ih]
      refine ⟨?_, ?_⟩
      · intro h
        obtain ⟨b, hb, bs, hbs, rfl⟩ := h
        exact ⟨b, bs, hb, hbs, rfl⟩
      · intro h
        obtain ⟨b, bs, hb, hbs, rfl⟩ := h
        exact ⟨b, hb, bs, hbs, rfl⟩

/-- What stands in one of two lists that agree item by item has its like in the other one. -/
theorem exists_of_mem_forall₂ {R : α → β → Prop} {as : List α} {bs : List β}
    (h : List.Forall₂ R as bs) : ∀ a ∈ as, ∃ b ∈ bs, R a b := by
  induction h with
  | nil =>
      intro a ha
      cases ha
  | cons hab _ ih =>
      intro a ha
      rcases List.mem_cons.mp ha with rfl | ha
      · exact ⟨_, List.mem_cons_self, hab⟩
      · obtain ⟨b, hb, h⟩ := ih a ha
        exact ⟨b, List.mem_cons_of_mem _ hb, h⟩

/-- Every result of steps on items is the result of the step on one of them. -/
theorem exists_of_mem_mapM {f : α → Except ε β} : ∀ {items : List α} {results : List β},
    items.mapM f = .ok results → ∀ b ∈ results, ∃ a ∈ items, f a = .ok b := by
  intro items
  induction items with
  | nil =>
      intro results h b hb
      cases pure_eq_ok.mp h
      cases hb
  | cons a rest ih =>
      intro results h b hb
      rw [List.mapM_cons] at h
      obtain ⟨first, hfirst, h⟩ := bind_eq_ok.mp h
      obtain ⟨others, hothers, h⟩ := bind_eq_ok.mp h
      cases pure_eq_ok.mp h
      rcases List.mem_cons.mp hb with rfl | hb
      · exact ⟨a, List.mem_cons_self, hfirst⟩
      · obtain ⟨a', ha', hb⟩ := ih hothers b hb
        exact ⟨a', List.mem_cons_of_mem _ ha', hb⟩

/-- If a step on some item fails, it fails at an item. -/
theorem mapM_eq_error {f : α → Except ε β} {e : ε} : ∀ {items : List α},
    items.mapM f = .error e → ∃ a ∈ items, f a = .error e := by
  intro items
  induction items with
  | nil =>
      intro h
      cases h
  | cons a rest ih =>
      intro h
      rw [List.mapM_cons, bind_eq_error] at h
      rcases h with h | ⟨b, -, h⟩
      · exact ⟨a, List.mem_cons_self, h⟩
      · rcases bind_eq_error.mp h with h | ⟨bs, -, h⟩
        · obtain ⟨a', ha', he⟩ := ih h
          exact ⟨a', List.mem_cons_of_mem _ ha', he⟩
        · cases h

/-! ### Whether there is a result -/

/-- A step gives a result. -/
def Succeeds (x : Except ε α) : Prop := ∃ a, x = .ok a

theorem succeeds_ok (a : α) : Succeeds (.ok a : Except ε α) := ⟨a, rfl⟩

theorem succeeds_pure (a : α) : Succeeds (pure a : Except ε α) := ⟨a, rfl⟩

theorem not_succeeds_error (e : ε) : ¬ Succeeds (.error e : Except ε α) := by
  intro h
  obtain ⟨a, ha⟩ := h
  cases ha

theorem succeeds_bind {x : Except ε α} {f : α → Except ε β} :
    Succeeds (x >>= f) ↔ ∃ a, x = .ok a ∧ Succeeds (f a) := by
  refine ⟨?_, ?_⟩
  · intro h
    obtain ⟨b, hb⟩ := h
    obtain ⟨a, ha, hf⟩ := bind_eq_ok.mp hb
    exact ⟨a, ha, b, hf⟩
  · intro h
    obtain ⟨a, ha, b, hb⟩ := h
    exact ⟨b, bind_eq_ok.mpr ⟨a, ha, hb⟩⟩

/-- Two steps, of which the second one gives a result no matter what the first one gave, or
never. -/
theorem succeeds_bind_and {x : Except ε α} {f : α → Except ε β} {P : Prop}
    (h : ∀ a, x = .ok a → (Succeeds (f a) ↔ P)) : Succeeds (x >>= f) ↔ Succeeds x ∧ P := by
  rw [succeeds_bind]
  refine ⟨?_, ?_⟩
  · intro h
    obtain ⟨a, ha, hf⟩ := h
    exact ⟨⟨a, ha⟩, (h a ha).mp hf⟩
  · intro h
    obtain ⟨⟨a, ha⟩, hP⟩ := h
    exact ⟨a, ha, (h a ha).mpr hP⟩

/-- What is made of a result in the end never fails. -/
theorem succeeds_bind_pure {x : Except ε α} {f : α → β} :
    Succeeds (x >>= fun a => pure (f a)) ↔ Succeeds x := by
  rw [succeeds_bind_and fun a _ => iff_true_intro (succeeds_pure (f a)), and_true]

theorem succeeds_map {x : Except ε α} {f : α → β} : Succeeds (x.map f) ↔ Succeeds x := by
  cases x <;> simp [Succeeds, Except.map]

theorem succeeds_mapM {f : α → Except ε β} (items : List α) :
    Succeeds (items.mapM f) ↔ ∀ a ∈ items, Succeeds (f a) := by
  induction items with
  | nil => exact iff_of_true (succeeds_pure []) fun a ha => absurd ha List.not_mem_nil
  | cons a rest ih =>
      rw [List.mapM_cons, List.forall_mem_cons, ← ih]
      exact succeeds_bind_and fun b _ => succeeds_bind_pure

/-! ### Which errors there can be -/

/-- A step fails with errors of some sort, and with no others. -/
def FailsOnly (P : ε → Prop) (x : Except ε α) : Prop := ∀ e, x = .error e → P e

variable {P : ε → Prop}

theorem failsOnly_ok (a : α) : FailsOnly P (.ok a) := by
  intro e he
  cases he

theorem failsOnly_error {e : ε} (h : P e) : FailsOnly P (.error e : Except ε α) := by
  intro e' he
  cases he
  exact h

theorem failsOnly_bind {x : Except ε α} {f : α → Except ε β} (hx : FailsOnly P x)
    (hf : ∀ a, FailsOnly P (f a)) : FailsOnly P (x >>= f) := by
  intro e he
  rcases bind_eq_error.mp he with he | ⟨a, -, he⟩
  · exact hx e he
  · exact hf a e he

theorem failsOnly_mapM {f : α → Except ε β} (hf : ∀ a, FailsOnly P (f a)) (items : List α) :
    FailsOnly P (items.mapM f) := by
  intro e he
  obtain ⟨a, -, ha⟩ := mapM_eq_error he
  exact hf a e ha

end Testbed.Outcome

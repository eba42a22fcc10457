/-
Which error comes first.

A sequence of steps that may fail ends with the first step that fails, and all that could be
wrong later is never come upon.  To say so without going through the steps again, everything
that can be wrong is given a place, a list of numbers, and places are compared number by
number.  `Finds` says that a step fails exactly if something is wrong, and then with
something of which no other is before it.

The lemmas follow the ways in which steps are put together: one after another, each under a
number of its own, or one for each item of a list.
-/
import Testbed.Proofs.Outcome

namespace Testbed.Outcome

/-- Where something is wrong. -/
abbrev Place := List Nat

/-- A place comes before another one, by the first number in which they differ. -/
def Place.Before (p q : Place) : Prop := List.Lex (· < ·) p q

namespace Place

theorem not_before_nil (p : Place) : ¬ Before p [] := by
  intro h
  cases h

theorem cons_before_cons {i j : Nat} {p q : Place} :
    Before (i :: p) (j :: q) ↔ i < j ∨ i = j ∧ Before p q := by
  refine ⟨?_, ?_⟩
  · intro h
    cases h with
    | rel hlt => exact Or.inl hlt
    | cons h => exact Or.inr ⟨rfl, h⟩
  · intro h
    rcases h with hlt | ⟨rfl, h⟩
    · exact .rel hlt
    · exact .cons h

theorem singleton_before_singleton {i j : Nat} : Before [i] [j] ↔ i < j := by
  rw [cons_before_cons, or_iff_left fun h => not_before_nil [] h.2]

end Place

/-- A step that does nothing but fail, if there is something to fail with. -/
def refuse {ε : Type} : Option ε → Except ε Unit
  | some e => .error e
  | none => .ok ()

variable {ε α β : Type} {D D₁ D₂ : Place → ε → Prop} {x : Except ε α}

/-- A step fails with what is wrong in the first place, and it does not fail if nothing is
wrong. -/
structure Finds (D : Place → ε → Prop) (x : Except ε α) : Prop where
  nothing : ∀ a, x = .ok a → ∀ p e, ¬ D p e
  first : ∀ e, x = .error e → ∃ p, D p e ∧ ∀ q e', D q e' → ¬ q.Before p

namespace Finds

theorem congr (h : Finds D₁ x) (hiff : ∀ p e, D₁ p e ↔ D₂ p e) : Finds D₂ x := by
  have heq : D₁ = D₂ := funext fun p => funext fun e => propext (hiff p e)
  exact heq ▸ h

/-! ### Single steps -/

theorem ok (a : α) (hnone : ∀ p e, ¬ D p e) : Finds D (.ok a : Except ε α) := by
  refine ⟨fun _ _ => hnone, fun e he => ?_⟩
  cases he

theorem error {p : Place} {e : ε} (hwrong : D p e) (hfirst : ∀ q e', D q e' → ¬ q.Before p) :
    Finds D (.error e : Except ε α) := by
  refine ⟨fun a ha => ?_, fun e' he' => ?_⟩
  · cases ha
  · cases he'
    exact ⟨p, hwrong, hfirst⟩

/-- A step that has one thing to look at. -/
theorem check {c : Prop} {e : ε} {y : Except ε α} (hwrong : c → y = .error e)
    (hright : ¬ c → ∃ a, y = .ok a) : Finds (fun p e' => p = [] ∧ c ∧ e' = e) y := by
  by_cases hc : c
  · rw [hwrong hc]
    exact error ⟨rfl, hc, rfl⟩ fun q _ _ => Place.not_before_nil q
  · obtain ⟨a, rfl⟩ := hright hc
    exact ok a fun p e' h => hc h.2.1

/-- A step that has two things to look at. -/
theorem check_two {c d : Prop} {e₁ e₂ : ε} {y : Except ε α} (hfirst : c → y = .error e₁)
    (hsecond : ¬ c → d → y = .error e₂) (hright : ¬ c → ¬ d → ∃ a, y = .ok a) :
    Finds (fun p e => p = [0] ∧ c ∧ e = e₁ ∨ p = [1] ∧ d ∧ e = e₂) y := by
  by_cases hc : c
  · rw [hfirst hc]
    refine error (p := [0]) (Or.inl ⟨rfl, hc, rfl⟩) fun q e' hq => ?_
    rcases hq with ⟨rfl, -⟩ | ⟨rfl, -⟩ <;> simp [Place.singleton_before_singleton]
  · by_cases hd : d
    · rw [hsecond hc hd]
      refine error (p := [1]) (Or.inr ⟨rfl, hd, rfl⟩) fun q e' hq => ?_
      rcases hq with ⟨-, hwrong, -⟩ | ⟨rfl, -⟩
      · exact absurd hwrong hc
      · simp [Place.singleton_before_singleton]
    · obtain ⟨a, rfl⟩ := hright hc hd
      refine ok a fun p e h => ?_
      rcases h with ⟨-, hwrong, -⟩ | ⟨-, hwrong, -⟩
      · exact hc hwrong
      · exact hd hwrong

/-- A step whose errors are put in other words. -/
theorem mapError {ε' : Type} (h : Finds D x) (g : ε → ε') {y : Except ε' α}
    (hok : ∀ a, x = .ok a → y = .ok a) (herror : ∀ e, x = .error e → y = .error (g e)) :
    Finds (fun p e => ∃ e₀, D p e₀ ∧ e = g e₀) y := by
  cases hx : x with
  | ok a =>
      rw [hok a hx]
      exact ok a fun p e ⟨e₀, hwrong, _⟩ => h.nothing a hx p e₀ hwrong
  | error e₀ =>
      rw [herror e₀ hx]
      obtain ⟨p, hwrong, hfirst⟩ := h.first e₀ hx
      exact error ⟨e₀, hwrong, rfl⟩ fun q e ⟨e₁, hq, _⟩ => hfirst q e₁ hq

/-- What is done with the result does not come upon anything. -/
theorem bind_pure (h : Finds D x) (f : α → β) : Finds D (x >>= fun a => pure (f a)) := by
  refine ⟨fun b hb => ?_, fun e he => ?_⟩
  · obtain ⟨a, ha, -⟩ := bind_eq_ok.mp hb
    exact h.nothing a ha
  · rcases bind_eq_error.mp he with he | ⟨a, -, he⟩
    · exact h.first e he
    · cases he

end Finds

/-! ### Steps with numbers -/

/-- What is wrong with some part of a whole, with the number of the part in front of its place. -/
def Each (D : Nat → Place → ε → Prop) : Place → ε → Prop :=
  fun p e => ∃ i q, p = i :: q ∧ D i q e

namespace Finds

theorem each_congr {D D' : Nat → Place → ε → Prop} (h : Finds (Each D) x)
    (hiff : ∀ i p e, D i p e ↔ D' i p e) : Finds (Each D') x :=
  h.congr fun _ e => exists_congr fun i => exists_congr fun q => and_congr_right fun _ =>
    hiff i q e

/-- A step under the number 0, and then the others. -/
theorem each_cons {D : Nat → Place → ε → Prop} {f : α → Except ε β} (hx : Finds (D 0) x)
    (hf : ∀ a, x = .ok a → Finds (Each fun i => D (i + 1)) (f a)) :
    Finds (Each D) (x >>= f) := by
  refine ⟨fun b hb p e hp => ?_, fun e he => ?_⟩
  · obtain ⟨a, ha, hb⟩ := bind_eq_ok.mp hb
    obtain ⟨i, q, rfl, hq⟩ := hp
    cases i with
    | zero => exact hx.nothing a ha q e hq
    | succ i => exact (hf a ha).nothing b hb (i :: q) e ⟨i, q, rfl, hq⟩
  · rcases bind_eq_error.mp he with he | ⟨a, ha, he⟩
    · obtain ⟨p, hp, hfirst⟩ := hx.first e he
      refine ⟨0 :: p, ⟨0, p, rfl, hp⟩, fun q e' hq hbefore => ?_⟩
      obtain ⟨i, q, rfl, hq⟩ := hq
      rcases Place.cons_before_cons.mp hbefore with hlt | ⟨rfl, hinner⟩
      · exact Nat.not_lt_zero i hlt
      · exact hfirst q e' hq hinner
    · -- Nothing is wrong under the number 0, so what comes before is under another one as well.
      obtain ⟨p, ⟨i, p, rfl, hp⟩, hfirst⟩ := (hf a ha).first e he
      refine ⟨(i + 1) :: p, ⟨i + 1, p, rfl, hp⟩, fun q e' hq hbefore => ?_⟩
      obtain ⟨j, q, rfl, hq⟩ := hq
      cases j with
      | zero => exact hx.nothing a ha q e' hq
      | succ j =>
          refine hfirst (j :: q) e' ⟨j, q, rfl, hq⟩ (Place.cons_before_cons.mpr ?_)
          rcases Place.cons_before_cons.mp hbefore with hlt | ⟨heq, hbefore⟩
          · exact Or.inl (Nat.lt_of_succ_lt_succ hlt)
          · exact Or.inr ⟨Nat.succ.inj heq, hbefore⟩

/-- Nothing is looked at under the number 0. -/
theorem each_skip {D : Nat → Place → ε → Prop} (hnone : ∀ p e, ¬ D 0 p e)
    (h : Finds (Each fun i => D (i + 1)) x) : Finds (Each D) x := by
  have hok : Finds (D 0) (.ok () : Except ε Unit) := ok () hnone
  exact each_cons (f := fun _ => x) hok fun _ _ => h

/-- Nothing is looked at under other numbers. -/
theorem each_only {D : Nat → Place → ε → Prop} (h : Finds (D 0) x)
    (hnone : ∀ i p e, ¬ D (i + 1) p e) : Finds (Each D) x := by
  have hrest : ∀ a, x = .ok a → Finds (Each fun i => D (i + 1)) (.ok a : Except ε α) :=
    fun a _ => ok a fun p e ⟨i, q, _, hq⟩ => hnone i q e hq
  have hsame : x = x >>= fun a => .ok a := by cases x <;> rfl
  rw [hsame]
  exact each_cons h hrest

/-- Nothing is wrong with the items of a list, if it has none. -/
theorem no_item {P : Nat → α → Place → ε → Prop} (b : β) : Finds (Each fun k p e =>
    ∃ item, ([] : List α)[k]? = some item ∧ P k item p e) (.ok b : Except ε β) := by
  refine ok b fun p e h => ?_
  obtain ⟨k, q, -, item, hitem, -⟩ := h
  cases hitem

/-- A step for the first item of a list, and then for the others; what is wrong with an item may
depend on its position. -/
theorem item_cons {P : Nat → α → Place → ε → Prop} {n : Nat} {a : α} {rest : List α}
    {γ : Type} {y : Except ε β} {f : β → Except ε γ} (hy : Finds (P n a) y)
    (hf : ∀ b, y = .ok b → Finds (Each fun k p e =>
      ∃ item, rest[k]? = some item ∧ P (n + 1 + k) item p e) (f b)) :
    Finds (Each fun k p e => ∃ item, (a :: rest)[k]? = some item ∧ P (n + k) item p e)
      (y >>= f) := by
  refine each_cons (hy.congr fun p e => ⟨fun h => ⟨a, rfl, h⟩, ?_⟩) fun b hb =>
    (hf b hb).each_congr fun k p e => ?_
  · intro h
    obtain ⟨item, hitem, h⟩ := h
    cases hitem
    exact h
  · rw [List.getElem?_cons_succ, Nat.add_right_comm, Nat.add_assoc]

/-- A step for the only item of a list. -/
theorem only_item {P : α → Place → ε → Prop} {a : α} {y : Except ε β} (h : Finds (P a) y) :
    Finds (Each fun k p e => ∃ item, [a][k]? = some item ∧ P item p e) y := by
  refine each_only (h.congr fun p e => ⟨fun h => ⟨a, rfl, h⟩, ?_⟩) fun k p e h => ?_
  · intro h
    obtain ⟨item, hitem, h⟩ := h
    cases hitem
    exact h
  · obtain ⟨item, hitem, -⟩ := h
    cases hitem

/-- A step for each item of a list. -/
theorem mapM {P : α → Place → ε → Prop} {f : α → Except ε β} : ∀ {items : List α},
    (∀ a ∈ items, Finds (P a) (f a)) →
      Finds (Each fun k p e => ∃ item, items[k]? = some item ∧ P item p e) (items.mapM f) := by
  intro items
  induction items with
  | nil => exact fun _ => no_item []
  | cons a rest ih =>
      intro h
      obtain ⟨hfirst, hrest⟩ := List.forall_mem_cons.mp h
      rw [List.mapM_cons]
      exact item_cons (P := fun _ => P) (n := 0) hfirst fun b _ =>
        bind_pure (ih hrest) (b :: ·)

end Finds

/-! ### Lists that are gone through -/

/-- What is wrong with an item of a list, with the position of the item as its place. -/
def Listed (P : α → ε → Prop) (items : List α) : Place → ε → Prop :=
  fun p e => ∃ i a, p = [i] ∧ items[i]? = some a ∧ P a e

theorem each_iff_listed {P : α → ε → Prop} {items : List α} (p : Place) (e : ε) :
    Each (fun k q e => ∃ item, items[k]? = some item ∧ q = [] ∧ P item e) p e
      ↔ Listed P items p e := by
  refine ⟨?_, ?_⟩
  · intro h
    obtain ⟨i, q, rfl, a, ha, rfl, hwrong⟩ := h
    exact ⟨i, a, rfl, ha, hwrong⟩
  · intro h
    obtain ⟨i, a, rfl, ha, hwrong⟩ := h
    exact ⟨i, [], rfl, a, ha, rfl, hwrong⟩

theorem getElem?_append {first rest : List α} {i : Nat} {a : α} :
    (first ++ rest)[i]? = some a
      ↔ first[i]? = some a ∨ ∃ j, i = first.length + j ∧ rest[j]? = some a := by
  by_cases hlt : i < first.length
  · rw [List.getElem?_append_left hlt]
    refine ⟨Or.inl, fun h => ?_⟩
    rcases h with h | ⟨j, rfl, -⟩
    · exact h
    · omega
  · obtain ⟨j, rfl⟩ := Nat.exists_eq_add_of_le (Nat.le_of_not_lt hlt)
    rw [List.getElem?_append_right (Nat.le_add_right _ _), Nat.add_sub_cancel_left,
      List.getElem?_eq_none (Nat.le_add_right _ _)]
    simp

namespace Finds

variable {P : α → ε → Prop}

/-- A list with a step for each item, each with one thing to look at. -/
theorem mapM_listed {f : α → Except ε β} {items : List α}
    (h : ∀ a ∈ items, Finds (fun p e => p = [] ∧ P a e) (f a)) :
    Finds (Listed P items) (items.mapM f) :=
  (mapM (P := fun a p e => p = [] ∧ P a e) h).congr each_iff_listed

theorem singleton {a : α} {y : Except ε β} (h : Finds (fun p e => p = [] ∧ P a e) y) :
    Finds (Listed P [a]) y :=
  (only_item (P := fun a p e => p = [] ∧ P a e) h).congr each_iff_listed

/-- One list after another one. -/
theorem append {γ δ : Type} {y : Except ε γ} {f : γ → Except ε δ} {first rest : List α}
    (hx : Finds (Listed P first) y) (hf : ∀ c, y = .ok c → Finds (Listed P rest) (f c)) :
    Finds (Listed P (first ++ rest)) (y >>= f) := by
  refine ⟨fun b hb p e hp => ?_, fun e he => ?_⟩
  · obtain ⟨c, hc, hb⟩ := bind_eq_ok.mp hb
    obtain ⟨i, a, rfl, ha, hwrong⟩ := hp
    rcases getElem?_append.mp ha with hitem | ⟨j, rfl, hitem⟩
    · exact hx.nothing c hc [i] e ⟨i, a, rfl, hitem, hwrong⟩
    · exact (hf c hc).nothing b hb [j] e ⟨j, a, rfl, hitem, hwrong⟩
  · rcases bind_eq_error.mp he with he | ⟨c, hc, he⟩
    · obtain ⟨_, ⟨i, a, rfl, ha, hwrong⟩, hfirst⟩ := hx.first e he
      refine ⟨[i], ⟨i, a, rfl, getElem?_append.mpr (Or.inl ha), hwrong⟩, fun q e' hq hbefore => ?_⟩
      obtain ⟨j, b, rfl, hb, hwrong'⟩ := hq
      rcases getElem?_append.mp hb with hitem | ⟨k, rfl, -⟩
      · exact hfirst [j] e' ⟨j, b, rfl, hitem, hwrong'⟩ hbefore
      · have hlt := (List.getElem?_eq_some_iff.mp ha).1
        rw [Place.singleton_before_singleton] at hbefore
        omega
    · obtain ⟨_, ⟨i, a, rfl, ha, hwrong⟩, hfirst⟩ := (hf c hc).first e he
      refine ⟨[first.length + i], ⟨_, a, rfl, getElem?_append.mpr (Or.inr ⟨i, rfl, ha⟩), hwrong⟩,
        fun q e' hq hbefore => ?_⟩
      obtain ⟨j, b, rfl, hb, hwrong'⟩ := hq
      rcases getElem?_append.mp hb with hitem | ⟨k, rfl, hitem⟩
      · exact hx.nothing c hc [j] e' ⟨j, b, rfl, hitem, hwrong'⟩
      · refine hfirst [k] e' ⟨k, b, rfl, hitem, hwrong'⟩ ?_
        rw [Place.singleton_before_singleton] at hbefore ⊢
        omega

theorem nil (b : β) : Finds (Listed P []) (.ok b : Except ε β) :=
  (no_item (P := fun _ a p e => p = [] ∧ P a e) b).congr each_iff_listed

/-- A list is gone through to its end exactly if nothing is wrong with any of its items. -/
theorem succeeds_iff {items : List α} {y : Except ε β} (h : Finds (Listed P items) y) :
    Succeeds y ↔ ∀ a ∈ items, ∀ e, ¬ P a e := by
  refine ⟨?_, ?_⟩
  · intro hy a ha e hwrong
    obtain ⟨b, hb⟩ := hy
    obtain ⟨i, hi⟩ := List.mem_iff_getElem?.mp ha
    exact h.nothing b hb [i] e ⟨i, a, rfl, hi, hwrong⟩
  · intro hnone
    cases hy : y with
    | ok b => exact succeeds_ok b
    | error e =>
        obtain ⟨_, ⟨i, a, rfl, ha, hwrong⟩, -⟩ := h.first e hy
        exact absurd hwrong (hnone a (List.mem_of_getElem? ha) e)

/-- Where only one thing can be wrong with an item, the error is that of the first item with
which something is wrong. -/
theorem error_iff {items : List α} {y : Except ε β} (h : Finds (Listed P items) y)
    (hunique : ∀ a e e', P a e → P a e' → e' = e) (e : ε) :
    y = .error e ↔ ∃ (k : Nat) (a : α), items[k]? = some a ∧ P a e
      ∧ ∀ j < k, ∀ b, items[j]? = some b → ∀ e', ¬ P b e' := by
  have hfirst : ∀ e, y = .error e → ∃ (k : Nat) (a : α), items[k]? = some a ∧ P a e
      ∧ ∀ j < k, ∀ b, items[j]? = some b → ∀ e', ¬ P b e' := by
    intro e hy
    obtain ⟨_, ⟨k, a, rfl, ha, hwrong⟩, hbefore⟩ := h.first e hy
    refine ⟨k, a, ha, hwrong, fun j hj b hb e' hwrong' => ?_⟩
    exact hbefore [j] e' ⟨j, b, rfl, hb, hwrong'⟩ (Place.singleton_before_singleton.mpr hj)
  refine ⟨hfirst e, ?_⟩
  intro h'
  obtain ⟨k, a, ha, hwrong, hnone⟩ := h'
  cases hy : y with
  | ok b => exact absurd hwrong (h.succeeds_iff.mp ⟨b, hy⟩ a (List.mem_of_getElem? ha) e)
  | error e' =>
      -- neither of the two items comes before the other one
      obtain ⟨k', a', ha', hwrong', hnone'⟩ := hfirst e' hy
      rcases Nat.lt_trichotomy k k' with hlt | rfl | hlt
      · exact absurd hwrong (hnone' k hlt a ha e)
      · cases ha.symm.trans ha'
        rw [hunique a e e' hwrong hwrong']
      · exact absurd hwrong' (hnone k' hlt a' ha' e')

end Finds

end Testbed.Outcome

/-
Reading numerals.

The parts of a numeral are read one after the other, and a part ends in front of the first
character that does not belong to it.  So a numeral that is read to the end of a text is also
read where something else follows, if that does not begin like the rest of a numeral.

An integer of 64 bits is written with its digits, and these are read as the integer: no
digit is dropped, and there is neither a fraction nor an exponent that would make it a float.
-/
import Testbed.Proofs.Json.Reading

namespace Testbed.Json.Reader

/-- The next character, if there is one, is not of a class. -/
def Stops (p : Char → Bool) (t : List Char) : Prop := ∀ c ∈ t.head?, p c = false

theorem stops_nil (p : Char → Bool) : Stops p [] := by
  intro c hc
  cases hc

theorem stops_cons {p : Char → Bool} {c : Char} {t : List Char} :
    Stops p (c :: t) ↔ p c = false := by
  simp [Stops]

theorem Stops.append {p : Char → Bool} {t rest : List Char} (h : Stops p t) (hrest : Stops p rest) :
    Stops p (t ++ rest) := by
  cases t with
  | nil => exact hrest
  | cons c t => exact stops_cons.mpr (stops_cons.mp h)

theorem Stops.mono {p q : Char → Bool} (hsub : ∀ c, q c = true → p c = true) {t : List Char}
    (h : Stops p t) : Stops q t := by
  intro c hc
  have hp := h c hc
  cases hq : q c with
  | false => rfl
  | true => rw [hsub c hq] at hp; exact hp

theorem reads_takeWhile_append {p : Char → Bool} {s found t : List Char} :
    (takeWhile p).Reads s found t ↔ s = found ++ t ∧ (∀ c ∈ found, p c = true) ∧ Stops p t := by
  rw [reads_takeWhile]
  refine ⟨?_, ?_⟩
  · rintro ⟨rfl, rfl⟩
    refine ⟨List.takeWhile_append_dropWhile.symm, fun c hc => ?_, ?_⟩
    · exact List.all_eq_true.mp List.all_takeWhile c hc
    · intro c hc
      have hhead := List.head?_dropWhile_not p s
      rw [hc] at hhead
      exact hhead
  · rintro ⟨rfl, hfound, hstops⟩
    rw [List.takeWhile_append_of_pos hfound, List.dropWhile_append_of_pos hfound]
    cases t with
    | nil => simp
    | cons c t =>
        have hc := stops_cons.mp hstops
        simp [hc]

/-! ### Parts of numerals -/

/-- Digits, of which there is at least one. -/
structure Digits (ds : List Char) : Prop where
  nonempty : ds ≠ []
  digit : ∀ c ∈ ds, c.isDigit = true

/-- Digits are read, whatever is made of them. -/
theorem reads_digits {wrap : List Char → α} {s t : List Char} {a : α} :
    Reads (do
      let digits ← takeWhile Char.isDigit
      if digits.isEmpty then
        match ← peek with
        | none => defect .endInValue
        | some _ => defect .invalidNumber
      else pure (wrap digits)) s a t
      ↔ ∃ ds, s = ds ++ t ∧ Digits ds ∧ Stops Char.isDigit t ∧ wrap ds = a := by
  simp only [reads_bind, reads_takeWhile_append]
  refine ⟨?_, ?_⟩
  · rintro ⟨ds, u, ⟨rfl, hds, hstops⟩, h⟩
    cases ds with
    | nil =>
        simp only [List.isEmpty_nil, if_true, reads_peek_bind] at h
        cases hu : u.head? <;> simp [hu] at h
    | cons d ds =>
        simp only [List.isEmpty_cons, Bool.false_eq_true, if_false, reads_pure] at h
        obtain ⟨rfl, rfl⟩ := h
        exact ⟨_, rfl, ⟨List.cons_ne_nil _ _, hds⟩, hstops, rfl⟩
  · rintro ⟨ds, rfl, hds, hstops, rfl⟩
    refine ⟨ds, t, ⟨rfl, hds.digit, hstops⟩, ?_⟩
    rw [if_neg (by simpa using hds.nonempty), reads_pure]
    exact ⟨rfl, rfl⟩

/-- The digits in front of a point: a zero only where it is the only one. -/
structure Whole (ds : List Char) : Prop extends Digits ds where
  zero : ds.head? = some '0' → ds = ['0']

theorem whole_of_reads {s ds t : List Char} (h : wholePart.Reads s ds t) :
    s = ds ++ t ∧ Whole ds ∧ Stops Char.isDigit t := by
  unfold wholePart at h
  rw [reads_next_bind] at h
  cases s with
  | nil => exact absurd h not_reads_defect
  | cons c u =>
      dsimp only [List.head?_cons, List.tail_cons] at h
      split at h
      · rename_i hc
        rw [reads_peek_bind] at h
        have hstops : Stops Char.isDigit u ∧ [c] = ds ∧ u = t := by
          cases u with
          | nil => exact ⟨stops_nil _, reads_pure.mp h⟩
          | cons d u =>
              dsimp only [List.head?_cons] at h
              split at h
              · exact absurd h not_reads_defect
              · rename_i hd
                exact ⟨stops_cons.mpr (Bool.eq_false_iff.mpr hd), reads_pure.mp h⟩
        obtain ⟨hstops, rfl, rfl⟩ := hstops
        subst hc
        exact ⟨rfl, ⟨⟨List.cons_ne_nil _ _, by simp⟩, fun _ => rfl⟩, hstops⟩
      · rename_i hc
        split at h
        · rename_i hdigit
          obtain ⟨more, v, hmore, h⟩ := reads_bind.mp h
          obtain ⟨rfl, rfl⟩ := reads_pure.mp h
          obtain ⟨rfl, hmore, hstops⟩ := reads_takeWhile_append.mp hmore
          refine ⟨rfl, ⟨⟨List.cons_ne_nil _ _, List.forall_mem_cons.mpr ⟨hdigit, hmore⟩⟩, ?_⟩,
            hstops⟩
          intro hzero
          exact absurd (Option.some.inj hzero) hc
        · exact absurd h not_reads_defect

theorem Whole.reads {ds t : List Char} (hds : Whole ds) (hstops : Stops Char.isDigit t) :
    wholePart.Reads (ds ++ t) ds t := by
  unfold wholePart
  rw [reads_next_bind]
  cases ds with
  | nil => exact absurd rfl hds.nonempty
  | cons c more =>
      dsimp only [List.cons_append, List.head?_cons, List.tail_cons]
      split
      · rename_i hc
        obtain rfl : more = [] := by
          have hzero := hds.zero (congrArg some hc)
          rw [hc] at hzero
          exact (List.cons.inj hzero).2
        rw [reads_peek_bind]
        cases t with
        | nil => exact reads_pure.mpr ⟨rfl, rfl⟩
        | cons d t =>
            have hd := stops_cons.mp hstops
            dsimp only [List.nil_append, List.head?_cons]
            rw [if_neg (Bool.eq_false_iff.mp hd)]
            exact reads_pure.mpr ⟨rfl, rfl⟩
      · obtain ⟨hdigit, hmore⟩ := List.forall_mem_cons.mp hds.digit
        rw [if_pos hdigit]
        exact (reads_takeWhile_append.mpr ⟨rfl, hmore, hstops⟩).bind (reads_pure.mpr ⟨rfl, rfl⟩)

theorem reads_wholePart {s ds t : List Char} :
    wholePart.Reads s ds t ↔ s = ds ++ t ∧ Whole ds ∧ Stops Char.isDigit t := by
  refine ⟨whole_of_reads, ?_⟩
  rintro ⟨rfl, hds, hstops⟩
  exact hds.reads hstops

/-- A fraction between two texts. -/
inductive Fraction : List Char → Option (List Char) → List Char → Prop
  | none {s : List Char} (stops : Stops (· == '.') s) : Fraction s none s
  | some {ds t : List Char} (digits : Digits ds) (stops : Stops Char.isDigit t) :
      Fraction ('.' :: (ds ++ t)) (some ds) t

theorem reads_fractionPart {s t : List Char} {found : Option (List Char)} :
    fractionPart.Reads s found t ↔ Fraction s found t := by
  unfold fractionPart
  rw [reads_peek_bind]
  refine ⟨?_, ?_⟩
  · intro h
    split at h
    · rename_i hpoint
      obtain ⟨u, rfl⟩ := List.head?_eq_some_iff.mp hpoint
      rw [reads_next_bind] at h
      obtain ⟨ds, rfl, hds, hstops, rfl⟩ := reads_digits.mp h
      exact .some hds hstops
    · rename_i hpoint
      obtain ⟨rfl, rfl⟩ := reads_pure.mp h
      refine .none fun c hc => ?_
      rw [beq_eq_false_iff_ne]
      rintro rfl
      exact hpoint hc
  · intro h
    cases h with
    | none stops =>
        split
        · rename_i hpoint
          exact absurd (stops _ hpoint) (by decide)
        · exact reads_pure.mpr ⟨rfl, rfl⟩
    | @some ds t digits stops =>
        show Reads (next >>= _) _ _ _
        rw [reads_next_bind]
        exact reads_digits.mpr ⟨ds, rfl, digits, stops, rfl⟩

/-- What an exponent begins with. -/
def isMark (c : Char) : Bool := c == 'e' || c == 'E'

/-- An exponent between two texts. -/
inductive Exponent : List Char → Option (Bool × List Char) → List Char → Prop
  | none {s : List Char} (stops : Stops isMark s) : Exponent s none s
  | unsigned {mark : Char} {ds t : List Char} (begins : isMark mark = true) (digits : Digits ds)
      (stops : Stops Char.isDigit t) : Exponent (mark :: (ds ++ t)) (some (false, ds)) t
  | signed {mark sign : Char} {ds t : List Char} (begins : isMark mark = true)
      (isSign : sign = '+' ∨ sign = '-') (digits : Digits ds) (stops : Stops Char.isDigit t) :
      Exponent (mark :: sign :: (ds ++ t)) (some (decide (some sign = some '-'), ds)) t

theorem isMark_iff {c : Char} : isMark c = true ↔ c = 'e' ∨ c = 'E' := by
  simp [isMark]

theorem not_isMark_iff {c : Char} : isMark c = false ↔ ¬(c = 'e' ∨ c = 'E') := by
  rw [← isMark_iff, Bool.not_eq_true]

/-- Digits do not begin with a sign. -/
theorem Digits.unsigned {ds : List Char} (h : Digits ds) (t : List Char) :
    ¬((ds ++ t).head? = some '+' ∨ (ds ++ t).head? = some '-') := by
  cases ds with
  | nil => exact absurd rfl h.nonempty
  | cons d ds =>
      have hd := h.digit d List.mem_cons_self
      rintro (hplus | hminus)
      · rw [Option.some.inj hplus] at hd
        exact absurd hd (by decide)
      · rw [Option.some.inj hminus] at hd
        exact absurd hd (by decide)

theorem exponent_of_reads {s t : List Char} {found : Option (Bool × List Char)}
    (h : exponentPart.Reads s found t) : Exponent s found t := by
  unfold exponentPart at h
  rw [reads_peek_bind] at h
  cases s with
  | nil =>
      obtain ⟨rfl, rfl⟩ := reads_pure.mp h
      exact .none (stops_nil _)
  | cons mark u =>
      dsimp only [List.head?_cons] at h
      by_cases hmark : mark = 'e' ∨ mark = 'E'
      · rw [if_pos hmark, reads_next_bind, reads_peek_bind, List.tail_cons] at h
        by_cases hsign : u.head? = some '+' ∨ u.head? = some '-'
        · rw [if_pos hsign, reads_next_bind] at h
          obtain ⟨ds, hu, hds, hstops, rfl⟩ := reads_digits.mp h
          cases u with
          | nil => simp at hsign
          | cons sign v =>
              rw [List.tail_cons] at hu
              subst hu
              refine .signed (isMark_iff.mpr hmark) ?_ hds hstops
              simpa using hsign
        · rw [if_neg hsign] at h
          obtain ⟨ds, rfl, hds, hstops, rfl⟩ := reads_digits.mp h
          rw [decide_eq_false fun hminus => hsign (.inr hminus)]
          exact .unsigned (isMark_iff.mpr hmark) hds hstops
      · rw [if_neg hmark] at h
        obtain ⟨rfl, rfl⟩ := reads_pure.mp h
        exact .none (stops_cons.mpr (not_isMark_iff.mpr hmark))

theorem Exponent.reads {s t : List Char} {found : Option (Bool × List Char)}
    (h : Exponent s found t) : exponentPart.Reads s found t := by
  unfold exponentPart
  rw [reads_peek_bind]
  cases h with
  | none stops =>
      cases s with
      | nil => exact reads_pure.mpr ⟨rfl, rfl⟩
      | cons c u =>
          dsimp only [List.head?_cons]
          rw [if_neg (not_isMark_iff.mp (stops_cons.mp stops))]
          exact reads_pure.mpr ⟨rfl, rfl⟩
  | @unsigned mark ds t begins digits stops =>
      have hsign := digits.unsigned t
      dsimp only [List.head?_cons]
      rw [if_pos (isMark_iff.mp begins), reads_next_bind, reads_peek_bind, List.tail_cons,
        if_neg hsign]
      refine reads_digits.mpr ⟨ds, rfl, digits, stops, ?_⟩
      rw [decide_eq_false fun hminus => hsign (.inr hminus)]
  | @signed mark sign ds t begins isSign digits stops =>
      have hsign : some sign = some '+' ∨ some sign = some '-' := by simpa using isSign
      dsimp only [List.head?_cons]
      rw [if_pos (isMark_iff.mp begins), reads_next_bind, reads_peek_bind, List.tail_cons,
        List.head?_cons, if_pos hsign, reads_next_bind]
      exact reads_digits.mpr ⟨ds, rfl, digits, stops, rfl⟩

theorem reads_exponentPart {s t : List Char} {found : Option (Bool × List Char)} :
    exponentPart.Reads s found t ↔ Exponent s found t :=
  ⟨exponent_of_reads, Exponent.reads⟩

/-! ### Numerals -/

/-- The sign in front of a numeral. -/
inductive Sign : List Char → Bool → List Char → Prop
  | plus {s : List Char} (stops : Stops (· == '-') s) : Sign s false s
  | minus (s : List Char) : Sign ('-' :: s) true s

theorem sign_iff {s u : List Char} {negative : Bool} :
    Sign s negative u ↔ decide (s.head? = some '-') = negative
      ∧ (if s.head? = some '-' then s.tail else s) = u := by
  refine ⟨?_, ?_⟩
  · intro h
    cases h with
    | plus stops =>
        have hplus : s.head? ≠ some '-' := fun hminus => absurd (stops _ hminus) (by decide)
        exact ⟨decide_eq_false hplus, if_neg hplus⟩
    | minus u => exact ⟨rfl, rfl⟩
  · rintro ⟨rfl, rfl⟩
    by_cases hminus : s.head? = some '-'
    · obtain ⟨u, rfl⟩ := List.head?_eq_some_iff.mp hminus
      exact .minus u
    · rw [if_neg hminus, decide_eq_false hminus]
      refine .plus fun c hc => beq_eq_false_iff_ne.mpr ?_
      rintro rfl
      exact hminus hc

theorem reads_unsigned {negative : Bool} {s t : List Char} {n : Number} :
    Reads (do
      let whole ← wholePart
      let fraction ← fractionPart
      let exponent ← exponentPart
      match Numeral.value? ⟨negative, whole, fraction, exponent⟩ with
      | some n => pure n
      | none => defect .numberOutOfRange) s n t
      ↔ ∃ (numeral : Numeral) (u v : List Char), numeral.negative = negative
        ∧ wholePart.Reads s numeral.whole u ∧ Fraction u numeral.fraction v
        ∧ Exponent v numeral.exponent t ∧ numeral.value? = some n := by
  simp only [reads_bind, reads_fractionPart, reads_exponentPart]
  refine ⟨?_, ?_⟩
  · rintro ⟨whole, u, hwhole, fraction, v, hfraction, exponent, w, hexponent, h⟩
    split at h
    · rename_i value hvalue
      obtain ⟨rfl, rfl⟩ := reads_pure.mp h
      exact ⟨⟨negative, whole, fraction, exponent⟩, u, v, rfl, hwhole, hfraction, hexponent, hvalue⟩
    · exact absurd h not_reads_defect
  · rintro ⟨⟨_, whole, fraction, exponent⟩, u, v, rfl, hwhole, hfraction, hexponent, hvalue⟩
    refine ⟨whole, u, hwhole, fraction, v, hfraction, exponent, t, hexponent, ?_⟩
    rw [hvalue]
    exact reads_pure.mpr ⟨rfl, rfl⟩

/-- **A number is the value of a numeral, whose parts are taken one after the other.** -/
theorem reads_number {s t : List Char} {n : Number} :
    number.Reads s n t ↔ ∃ (numeral : Numeral) (u v w : List Char), Sign s numeral.negative u
      ∧ wholePart.Reads u numeral.whole v ∧ Fraction v numeral.fraction w
      ∧ Exponent w numeral.exponent t ∧ numeral.value? = some n := by
  have hsigned : number.Reads s n t ↔ Reads (do
      let whole ← wholePart
      let fraction ← fractionPart
      let exponent ← exponentPart
      match Numeral.value? ⟨decide (s.head? = some '-'), whole, fraction, exponent⟩ with
      | some n => pure n
      | none => defect .numberOutOfRange) (if s.head? = some '-' then s.tail else s) n t := by
    unfold number
    rw [reads_peek_bind]
    by_cases hminus : s.head? = some '-'
    · have htail : (if s.head? = some '-' then s.tail else s) = s.tail := if_pos hminus
      rw [htail, if_pos hminus]
      exact reads_next_bind
    · have hall : (if s.head? = some '-' then s.tail else s) = s := if_neg hminus
      rw [hall]
      exact iff_of_eq (congrArg (Reads · s n t) (if_neg hminus))
  rw [hsigned, reads_unsigned]
  simp only [sign_iff]
  refine ⟨?_, ?_⟩
  · rintro ⟨numeral, v, w, hnegative, h⟩
    exact ⟨numeral, _, v, w, ⟨hnegative.symm, rfl⟩, h⟩
  · rintro ⟨numeral, _, v, w, ⟨hnegative, rfl⟩, h⟩
    exact ⟨numeral, v, w, hnegative.symm, h⟩

/-! ### What may follow -/

/-- A character that can go on a numeral. -/
def goesOn (c : Char) : Bool := c.isDigit || c == '.' || isMark c

theorem Stops.digit {t : List Char} (h : Stops goesOn t) : Stops Char.isDigit t :=
  h.mono fun c hc => by simp [goesOn, hc]

theorem Stops.point {t : List Char} (h : Stops goesOn t) : Stops (· == '.') t :=
  h.mono fun c hc => by simp_all [goesOn]

theorem Stops.mark {t : List Char} (h : Stops goesOn t) : Stops isMark t :=
  h.mono fun c hc => by simp [goesOn, hc]

section Append

variable {rest : List Char} (hrest : Stops goesOn rest)

include hrest

theorem Fraction.append {s t : List Char} {found : Option (List Char)} (h : Fraction s found t) :
    Fraction (s ++ rest) found (t ++ rest) := by
  cases h with
  | none stops => exact .none (stops.append hrest.point)
  | some digits stops =>
      rw [List.cons_append, List.append_assoc]
      exact .some digits (stops.append hrest.digit)

theorem Exponent.append {s t : List Char} {found : Option (Bool × List Char)}
    (h : Exponent s found t) : Exponent (s ++ rest) found (t ++ rest) := by
  cases h with
  | none stops => exact .none (stops.append hrest.mark)
  | unsigned begins digits stops =>
      rw [List.cons_append, List.append_assoc]
      exact .unsigned begins digits (stops.append hrest.digit)
  | signed begins isSign digits stops =>
      rw [List.cons_append, List.cons_append, List.append_assoc]
      exact .signed begins isSign digits (stops.append hrest.digit)

theorem Reads.wholePart_append {s ds t : List Char} (h : wholePart.Reads s ds t) :
    wholePart.Reads (s ++ rest) ds (t ++ rest) := by
  obtain ⟨rfl, hds, hstops⟩ := reads_wholePart.mp h
  rw [List.append_assoc]
  exact reads_wholePart.mpr ⟨rfl, hds, hstops.append hrest.digit⟩

end Append

theorem Sign.append {s u : List Char} {negative : Bool} (h : Sign s negative u) (hu : u ≠ [])
    (rest : List Char) : Sign (s ++ rest) negative (u ++ rest) := by
  cases h with
  | plus stops =>
      cases s with
      | nil => exact absurd rfl hu
      | cons c s =>
          have hc : ∀ d ∈ (c :: s).head?, (d == '-') = false := stops
          exact .plus hc
  | minus => exact .minus _

theorem ne_nil_of_wholePart {s ds t : List Char} (h : wholePart.Reads s ds t) : s ≠ [] := by
  obtain ⟨rfl, hds, -⟩ := reads_wholePart.mp h
  intro hnil
  exact hds.nonempty (List.append_eq_nil_iff.mp hnil).1

/-- **A number is read in front of whatever does not go on with it.** -/
theorem Reads.number_append {s t rest : List Char} {n : Number} (h : number.Reads s n t)
    (hrest : Stops goesOn rest) : number.Reads (s ++ rest) n (t ++ rest) := by
  obtain ⟨numeral, u, v, w, hsign, hwhole, hfraction, hexponent, hvalue⟩ := reads_number.mp h
  exact reads_number.mpr ⟨numeral, _, _, _, hsign.append (ne_nil_of_wholePart hwhole) rest,
    hwhole.wholePart_append hrest, hfraction.append hrest, hexponent.append hrest, hvalue⟩

/-- A number begins with its sign or with a digit. -/
theorem exists_head_of_number {s t : List Char} {n : Number} (h : number.Reads s n t) :
    ∃ c u, s = c :: u ∧ (c = '-' ∨ c.isDigit = true) := by
  obtain ⟨⟨negative, whole, fraction, exponent⟩, u, v, w, hsign, hwhole, -⟩ := reads_number.mp h
  obtain ⟨rfl, hds, -⟩ := reads_wholePart.mp hwhole
  cases hsign with
  | plus stops =>
      cases whole with
      | nil => exact absurd rfl hds.nonempty
      | cons c more => exact ⟨c, more ++ v, rfl, .inr (hds.digit c List.mem_cons_self)⟩
  | minus => exact ⟨'-', _, rfl, .inl rfl⟩

/-! ### Integers -/

theorem natural_toDigits (n : Nat) : Numeral.natural (Nat.toDigits 10 n) = n :=
  Nat.ofDigitChars_ten_toDigits

/-- The digits of a number do not begin with a zero, unless it is zero. -/
theorem head?_toDigits {n : Nat} (h : 0 < n) : (Nat.toDigits 10 n).head? ≠ some '0' := by
  induction n using Nat.strongRecOn with
  | ind n ih =>
      have hdigit : ∀ m, m < 10 → 0 < m → m.digitChar ≠ '0' := by decide
      by_cases hn : n < 10
      · rw [Nat.toDigits_of_lt_base hn]
        intro hzero
        exact hdigit n hn h (Option.some.inj hzero)
      · have hprev := ih (n / 10) (by omega) (by omega)
        rw [Nat.toDigits_of_base_le (by decide) (by omega)]
        cases hdigits : Nat.toDigits 10 (n / 10) with
        | nil => exact absurd hdigits Nat.toDigits_ne_nil
        | cons c more => rwa [hdigits] at hprev

theorem whole_toDigits (n : Nat) : Whole (Nat.toDigits 10 n) := by
  refine ⟨⟨Nat.toDigits_ne_nil, fun c hc => Nat.isDigit_of_mem_toDigits (by decide) (by decide) hc⟩,
    fun hzero => ?_⟩
  by_cases hn : 0 < n
  · exact absurd hzero (head?_toDigits hn)
  · rw [Nat.eq_zero_of_not_pos hn]
    rfl

/-- Digits in front of the end of a text are read as the value they have behind their sign. -/
theorem reads_integer {s : List Char} {negative : Bool} {m : Nat}
    (hsign : Sign s negative (Nat.toDigits 10 m)) {n : Number}
    (hvalue : Numeral.value? ⟨negative, Nat.toDigits 10 m, none, none⟩ = some n) :
    number.Reads s n [] := by
  have hwhole : wholePart.Reads (Nat.toDigits 10 m) (Nat.toDigits 10 m) [] :=
    reads_wholePart.mpr ⟨(List.append_nil _).symm, whole_toDigits m, stops_nil _⟩
  exact reads_number.mpr ⟨⟨negative, Nat.toDigits 10 m, none, none⟩, _, _, _, hsign, hwhole,
    .none (stops_nil _), .none (stops_nil _), hvalue⟩

end Testbed.Json.Reader

namespace Testbed.Number

open Json

/-- A number that is read back from its characters: an integer of 64 bits, or a float whose
characters are read as the same float. -/
def Restorable : Number → Prop
  | integer value => -(Numeral.negativeCount : Int) ≤ value ∧ value < Numeral.wordCount
  | float x => Reader.number.Reads (floatText x) (float x) []

theorem restorable_natural {n : Nat} (h : n < Numeral.wordCount) : (integer n).Restorable :=
  ⟨by omega, Int.ofNat_lt.mpr h⟩

/-- **A restorable number is read back from its characters.** -/
theorem Restorable.reads {n : Number} (h : n.Restorable) : Reader.number.Reads n.text n [] := by
  cases n with
  | float x => exact h
  | integer value =>
      obtain ⟨hlow, hhigh⟩ := h
      cases value with
      | ofNat m =>
          have hm : m < Numeral.wordCount := by
            rw [Int.ofNat_eq_natCast] at hhigh
            exact Int.ofNat_lt.mp hhigh
          have hvalue : Numeral.value? ⟨false, Nat.toDigits 10 m, none, none⟩
              = some (.integer m) := by
            simp [Numeral.value?, Reader.natural_toDigits, hm]
          refine Reader.reads_integer (.plus fun c hc => ?_) hvalue
          · have hdigit := (Reader.whole_toDigits m).digit c (List.mem_of_mem_head? hc)
            refine beq_eq_false_iff_ne.mpr ?_
            rintro rfl
            exact absurd hdigit (by decide)
      | negSucc m =>
          have hm : m + 1 ≤ Numeral.negativeCount := by omega
          have hvalue : Numeral.value? ⟨true, Nat.toDigits 10 (m + 1), none, none⟩
              = some (.integer (.negSucc m)) := by
            simp [Numeral.value?, Reader.natural_toDigits, hm, Int.negSucc_eq]
          exact Reader.reads_integer (.minus _) hvalue

end Testbed.Number

/-
Passing over values.

A value that nobody wants is passed over without being built, and less is asked of it: its
numbers may be of any size, its escapes may spell half a pair, and brackets may stand inside one
another to any depth.  Where there is a value, though, nothing of this is needed, and the value
ends where it is passed over.

Skipping goes on behind a value as the brackets around it ask for, so what is shown of a value is
that whatever goes on behind it also goes on with the value in front.  The induction is on the
number of brackets that may be opened, for the entries of a bracket have one less.
-/
import Testbed.Json.Skip
import Testbed.Proofs.Json.Numeral
import Testbed.Proofs.Outcome

namespace Testbed.Json.Reader

/-! ### Numbers -/

/-- Digits are passed over, with whatever `rest` passes over behind them. -/
theorem skips_digits {ds t : List Char} (hds : Digits ds) (hstops : Stops Char.isDigit t)
    {rest : Reader Unit} {u : List Char} (hrest : rest.Reads t () u) : Reads (do
      if (← takeWhile Char.isDigit).isEmpty then defect .invalidNumber
      rest) (ds ++ t) () u := by
  refine (reads_takeWhile_append.mpr ⟨rfl, hds.digit, hstops⟩).bind ?_
  dsimp only
  rw [if_neg (by simpa using hds.nonempty)]
  exact hrest

theorem skips_exponent {s t : List Char} {found : Option (Bool × List Char)}
    (h : Exponent s found t) : Reads (do
      let mark ← peek
      if mark = some 'e' ∨ mark = some 'E' then do
        let _ ← next
        let sign ← peek
        if sign = some '+' ∨ sign = some '-' then let _ ← next
        if (← takeWhile Char.isDigit).isEmpty then defect .invalidNumber) s () t := by
  rw [reads_peek_bind]
  cases h with
  | none stops =>
      have hmark : ¬(s.head? = some 'e' ∨ s.head? = some 'E') := by
        rintro (hhead | hhead)
        · exact absurd (stops _ hhead) (by decide)
        · exact absurd (stops _ hhead) (by decide)
      rw [if_neg hmark]
      exact reads_pure.mpr ⟨rfl, rfl⟩
  | @unsigned mark ds t begins digits stops =>
      have hmark : some mark = some 'e' ∨ some mark = some 'E' := by
        simpa using isMark_iff.mp begins
      rw [List.head?_cons, if_pos hmark, reads_next_bind, List.tail_cons, reads_peek_bind]
      dsimp only
      rw [if_neg (digits.unsigned t)]
      exact skips_digits digits stops (reads_pure.mpr ⟨rfl, rfl⟩)
  | @signed mark sign ds t begins isSign digits stops =>
      have hmark : some mark = some 'e' ∨ some mark = some 'E' := by
        simpa using isMark_iff.mp begins
      have hsign : some sign = some '+' ∨ some sign = some '-' := by simpa using isSign
      rw [List.head?_cons, if_pos hmark, reads_next_bind, List.tail_cons, reads_peek_bind]
      dsimp only
      rw [List.head?_cons, if_pos hsign, reads_next_bind]
      exact skips_digits digits stops (reads_pure.mpr ⟨rfl, rfl⟩)

theorem skips_fraction {s t : List Char} {found : Option (List Char)} (h : Fraction s found t)
    {rest : Reader Unit} {u : List Char} (hrest : rest.Reads t () u) : Reads (do
      if (← peek) = some '.' then do
        let _ ← next
        if (← takeWhile Char.isDigit).isEmpty then defect .invalidNumber
      rest) s () u := by
  rw [reads_peek_bind]
  cases h with
  | none stops =>
      have hpoint : s.head? ≠ some '.' := fun hhead => absurd (stops _ hhead) (by decide)
      dsimp only
      rw [if_neg hpoint]
      exact hrest
  | @some ds t digits stops =>
      dsimp only
      rw [List.head?_cons, if_pos rfl, reads_next_bind]
      exact skips_digits digits stops hrest

theorem skips_whole {d : Char} {more t : List Char} (hds : Whole (d :: more))
    (hstops : Stops Char.isDigit t) {rest : Reader Unit} {u : List Char}
    (hrest : rest.Reads t () u) : Reads (do
      if d = '0' then do
        match ← peek with
        | some e => if e.isDigit then defect .invalidNumber
        | none => pure ()
      else if d.isDigit then do
        let _ ← takeWhile Char.isDigit
      else defect .invalidNumber
      rest) (more ++ t) () u := by
  by_cases hzero : d = '0'
  · obtain rfl : more = [] := by
      have hd := hds.zero (congrArg some hzero)
      rw [hzero] at hd
      exact (List.cons.inj hd).2
    rw [if_pos hzero, List.nil_append, reads_peek_bind]
    cases t with
    | nil => exact hrest
    | cons e t =>
        have he := stops_cons.mp hstops
        dsimp only [List.head?_cons]
        rw [if_neg (Bool.eq_false_iff.mp he)]
        exact hrest
  · obtain ⟨hdigit, hmore⟩ := List.forall_mem_cons.mp hds.digit
    rw [if_neg hzero, if_pos hdigit]
    exact (reads_takeWhile_append.mpr ⟨rfl, hmore, hstops⟩).bind hrest

/-- A number is passed over as it is read. -/
theorem skips_number {s t : List Char} {n : Number} (h : number.Reads s n t) :
    ∃ c u, s = c :: u ∧ (skipNumber c).Reads u () t := by
  obtain ⟨numeral, u, v, w, hsign, hwhole, hfraction, hexponent, -⟩ := reads_number.mp h
  obtain ⟨rfl, hds, hstops⟩ := reads_wholePart.mp hwhole
  have hrest := skips_fraction hfraction (skips_exponent hexponent)
  obtain ⟨d, more, hwhole⟩ := List.exists_cons_of_ne_nil hds.nonempty
  rw [hwhole] at hds
  have hdigit := hds.digit d List.mem_cons_self
  have hafter := skips_whole hds hstops hrest
  generalize numeral.negative = negative at hsign
  generalize hu : numeral.whole ++ v = u at hsign
  rw [hwhole, List.cons_append] at hu
  subst hu
  unfold skipNumber
  cases hsign with
  | plus stops =>
      have hminus : d ≠ '-' := by
        rintro rfl
        exact absurd hdigit (by decide)
      refine ⟨d, more ++ v, rfl, ?_⟩
      rw [if_neg hminus]
      exact (reads_pure.mpr ⟨rfl, rfl⟩).bind hafter
  | minus _ =>
      refine ⟨'-', d :: (more ++ v), rfl, ?_⟩
      rw [if_pos rfl]
      exact reads_next_bind.mpr hafter

/-! ### Strings -/

theorem skips_shortEscape {x c : Char} (hx : x ≠ 'u') (hc : shortEscape? x = some c)
    (s : List Char) : skipEscape.Reads (x :: s) () s := by
  unfold skipEscape
  rw [reads_next_bind]
  dsimp only [List.head?_cons, List.tail_cons]
  rw [if_neg hx, if_neg (by simp [hc])]
  exact reads_pure.mpr ⟨rfl, rfl⟩

theorem skips_hexUnit {s t : List Char} {n : Nat} (h : hexUnit.Reads s n t) :
    skipEscape.Reads ('u' :: s) () t := by
  unfold skipEscape
  rw [reads_next_bind]
  dsimp only [List.head?_cons, List.tail_cons]
  rw [if_pos rfl]
  exact h.bind (reads_pure.mpr ⟨rfl, rfl⟩)

theorem reads_pairMark {c : Char} {s t : List Char} (h : (pairMark c).Reads s () t) :
    s = c :: t := by
  unfold pairMark at h
  rw [reads_next_bind] at h
  cases s with
  | nil => exact absurd h not_reads_defect
  | cons d u =>
      dsimp only [List.head?_cons, List.tail_cons] at h
      split at h
      · rename_i hd
        obtain ⟨-, rfl⟩ := reads_pure.mp h
        rw [hd]
      · exact absurd h not_reads_defect

/-- Behind its `u`, an escape is one unit, or the two units of a pair. -/
theorem units_of_reads {s t : List Char} {c : Char} (h : unicodeEscape.Reads s c t) :
    ∃ n u, hexUnit.Reads s n u
      ∧ (u = t ∨ ∃ v low, u = '\\' :: 'u' :: v ∧ hexUnit.Reads v low t) := by
  unfold unicodeEscape at h
  obtain ⟨n, u, hn, h⟩ := reads_bind.mp h
  refine ⟨n, u, hn, ?_⟩
  split at h
  · exact absurd h not_reads_defect
  · split at h
    · exact .inl (reads_pure.mp h).2
    · obtain ⟨⟨⟩, v, hslash, h⟩ := reads_bind.mp h
      obtain ⟨⟨⟩, w, hu, h⟩ := reads_bind.mp h
      obtain ⟨low, t', hlow, h⟩ := reads_bind.mp h
      split at h
      · exact absurd h not_reads_defect
      · obtain ⟨-, rfl⟩ := reads_pure.mp h
        refine .inr ⟨w, low, ?_, hlow⟩
        rw [reads_pairMark hslash, reads_pairMark hu]

/-- A string is passed over mark by mark, a pair of escapes as two marks. -/
def Skips (s t : List Char) : Prop :=
  ∃ units, Reads (marks skipEscape fun _ => () : Reader (List Unit)) s units t

theorem skips_escaped {s t u : List Char} {c : Char} (h : escaped.Reads s c t)
    (hrest : Skips t u) : Skips ('\\' :: s) u := by
  obtain ⟨units, hrest⟩ := hrest
  unfold escaped at h
  rw [reads_next_bind] at h
  split at h
  · exact absurd h not_reads_defect
  · rename_i hu
    obtain ⟨v, rfl⟩ := List.head?_eq_some_iff.mp hu
    obtain ⟨n, w, hn, rfl | ⟨x, low, rfl, hlow⟩⟩ := units_of_reads h
    · exact ⟨_, marks_escape (skips_hexUnit hn) hrest⟩
    · exact ⟨_, marks_escape (skips_hexUnit hn) (marks_escape (skips_hexUnit hlow) hrest)⟩
  · rename_i x hne hx
    obtain ⟨v, rfl⟩ := List.head?_eq_some_iff.mp hx
    split at h
    · rename_i d hd
      obtain ⟨-, rfl⟩ := reads_pure.mp h
      exact ⟨_, marks_escape (skips_shortEscape hne hd _) hrest⟩
    · exact absurd h not_reads_defect

theorem skips_marks {s t cs : List Char}
    (h : Reads (marks escaped id : Reader (List Char)) s cs t) : Skips s t := by
  obtain ⟨ht, h⟩ := reads_iff.mp h
  fun_induction marks escaped id s generalizing cs t with
  | case2 u =>
      cases h
      exact ⟨[], marks_close⟩
  | case5 s a u hu hescaped cs' rest hmarks _ ih =>
      cases h
      exact skips_escaped (reads_iff.mpr ⟨hu, hescaped⟩)
        (ih (reads_iff.mpr ⟨rest.property, hmarks⟩) rest.property hmarks)
  | case8 c s hquote hslash hcontrol cs' rest hmarks ih =>
      cases h
      obtain ⟨units, hunits⟩ :=
        ih (reads_iff.mpr ⟨rest.property, hmarks⟩) rest.property hmarks
      exact ⟨_, marks_plain hquote hslash hcontrol hunits⟩
  | _ => cases h

theorem skips_stringRest {s t : List Char} {text : String} (h : stringRest.Reads s text t) :
    skipString.Reads s () t := by
  obtain ⟨cs, u, hcs, h⟩ := reads_bind.mp h
  obtain ⟨-, rfl⟩ := reads_pure.mp h
  obtain ⟨units, hunits⟩ := skips_marks hcs
  exact hunits.bind (reads_pure.mpr ⟨rfl, rfl⟩)

theorem skips_key {s t : List Char} {name : String}
    (h : (key fun _ => .ok ()).Reads s name t) : skipKey.Reads s () t := by
  obtain ⟨u, v, hu, hname, -, hv⟩ := reads_key.mp h
  unfold skipKey
  rw [reads_peekPastBlanks_bind, hu]
  show Reads (next >>= _) _ _ _
  rw [reads_next_bind]
  refine (skips_stringRest hname).bind ?_
  rw [reads_peekPastBlanks_bind, hv]
  show Reads (next >>= _) _ _ _
  rw [reads_next_bind]
  exact reads_pure.mpr ⟨rfl, rfl⟩

/-! ### Beginnings -/

theorem skips_word {c : Char} {letters u t : List Char} {g g' : Glimpse}
    (h : Reads (do
      word (c :: letters)
      pure g) (c :: u) g' t) : (word letters).Reads u () t ∧ g = g' := by
  obtain ⟨⟨⟩, v, hword, h⟩ := reads_bind.mp h
  obtain ⟨rfl, rfl⟩ := reads_pure.mp h
  exact ⟨reads_word.mpr (List.cons.inj (reads_word.mp hword)).2, rfl⟩

theorem opened?_of_number {c : Char} (h : c = '-' ∨ c.isDigit = true) : opened? c = none := by
  have hsquare : c ≠ '[' := by
    rintro rfl
    exact absurd h (by decide)
  have hcurly : c ≠ '\x7b' := by
    rintro rfl
    exact absurd h (by decide)
  unfold opened?
  rw [if_neg hsquare, if_neg hcurly]

/-- How the beginning of a value is passed over, where `c` is its first character and `u` what
stands behind that: a scalar as a whole, while of a bracket nothing is taken. -/
inductive Begun (c : Char) (u : List Char) : Glimpse → List Char → Prop
  | scalar {g : Glimpse} {t : List Char} (opens : opened? c = none)
      (skips : (skipScalar c).Reads u () t) (sequence : g ≠ .sequence) (map : g ≠ .map) :
      Begun c u g t
  | sequence (opens : opened? c = some .square) : Begun c u .sequence (c :: u)
  | map (opens : opened? c = some .curly) : Begun c u .map (c :: u)

theorem begun_of_glimpse {s t : List Char} {g : Glimpse} (h : glimpse.Reads s g t) :
    ∃ c u, s.dropWhile isBlank = c :: u ∧ Begun c u g t := by
  unfold glimpse at h
  rw [reads_peekPastBlanks_bind] at h
  cases hs : s.dropWhile isBlank with
  | nil =>
      rw [hs] at h
      exact absurd h not_reads_defect
  | cons c u =>
      refine ⟨c, u, rfl, ?_⟩
      rw [hs] at h
      dsimp only [List.head?_cons] at h
      split at h
      · rename_i hc
        subst hc
        obtain ⟨hword, rfl⟩ := skips_word h
        exact .scalar rfl hword nofun nofun
      split at h
      · rename_i hc
        subst hc
        obtain ⟨hword, rfl⟩ := skips_word h
        exact .scalar rfl hword nofun nofun
      split at h
      · rename_i hc
        subst hc
        obtain ⟨hword, rfl⟩ := skips_word h
        exact .scalar rfl hword nofun nofun
      split at h
      · rename_i hn ht hf hc
        obtain ⟨n, v, hnumber, h⟩ := reads_bind.mp h
        obtain ⟨rfl, rfl⟩ := reads_pure.mp h
        obtain ⟨d, w, heq, hskips⟩ := skips_number hnumber
        cases heq
        refine .scalar (opened?_of_number hc) ?_ nofun nofun
        unfold skipScalar
        rwa [if_neg hn, if_neg ht, if_neg hf, if_pos hc]
      split at h
      · rename_i hc
        subst hc
        rw [reads_next_bind] at h
        obtain ⟨text, v, hstring, h⟩ := reads_bind.mp h
        obtain ⟨rfl, rfl⟩ := reads_pure.mp h
        exact .scalar rfl (skips_stringRest hstring) nofun nofun
      split at h
      · rename_i hc
        subst hc
        obtain ⟨rfl, rfl⟩ := reads_pure.mp h
        exact .sequence rfl
      split at h
      · rename_i hc
        subst hc
        obtain ⟨rfl, rfl⟩ := reads_pure.mp h
        exact .map rfl
      · exact absurd h not_reads_defect

/-! ### Brackets

One lemma for each branch of the three functions that keep the list of open brackets. -/

section Steps

variable {stack : List Bracket} {bracket : Bracket} {s t u v : List Char} {c : Char}

theorem skipValue_scalar (begins : s.dropWhile isBlank = c :: t) (opens : opened? c = none)
    (scalar : (skipScalar c).Reads t () u) (after : Reads (skipAfter stack : Reader Unit) u () v) :
    Reads (skipValue stack : Reader Unit) s () v := by
  obtain ⟨ht, hbegins⟩ := afterBlanks_eq begins
  obtain ⟨hu, hscalar⟩ := reads_iff.mp scalar
  obtain ⟨hv, hafter⟩ := reads_iff.mp after
  unfold Reads run
  rw [skipValue]
  simp only [hbegins, opens, hscalar, hafter]
  rfl

theorem skipValue_empty (begins : s.dropWhile isBlank = c :: t) (opens : opened? c = some bracket)
    (closes : t.dropWhile isBlank = bracket.close :: u)
    (after : Reads (skipAfter stack : Reader Unit) u () v) :
    Reads (skipValue stack : Reader Unit) s () v := by
  obtain ⟨ht, hbegins⟩ := afterBlanks_eq begins
  obtain ⟨hu, hcloses⟩ := afterBlanks_eq closes
  obtain ⟨hv, hafter⟩ := reads_iff.mp after
  unfold Reads run
  rw [skipValue]
  simp only [hbegins, opens, hcloses, if_pos, hafter]
  rfl

theorem skipValue_bracket {d : Char} (begins : s.dropWhile isBlank = c :: t)
    (opens : opened? c = some bracket) (first : t.dropWhile isBlank = d :: u)
    (notClose : d ≠ bracket.close)
    (entry : Reads (skipEntry bracket stack : Reader Unit) (d :: u) () v) :
    Reads (skipValue stack : Reader Unit) s () v := by
  obtain ⟨ht, hbegins⟩ := afterBlanks_eq begins
  obtain ⟨hu, hfirst⟩ := afterBlanks_eq first
  obtain ⟨hv, hentry⟩ := reads_iff.mp entry
  unfold Reads run
  rw [skipValue]
  simp only [hbegins, opens, hfirst, if_neg notClose, hentry]
  rfl

theorem skipAfter_nil : Reads (skipAfter [] : Reader Unit) s () s := by
  unfold Reads run
  rw [skipAfter]
  rfl

theorem skipAfter_comma (comma : s.dropWhile isBlank = ',' :: t)
    (entry : Reads (skipEntry bracket stack : Reader Unit) t () u) :
    Reads (skipAfter (bracket :: stack) : Reader Unit) s () u := by
  obtain ⟨ht, hcomma⟩ := afterBlanks_eq comma
  obtain ⟨hu, hentry⟩ := reads_iff.mp entry
  unfold Reads run
  rw [skipAfter]
  simp only [hcomma, if_pos, hentry]
  rfl

theorem skipAfter_close (closes : s.dropWhile isBlank = bracket.close :: t)
    (after : Reads (skipAfter stack : Reader Unit) t () u) :
    Reads (skipAfter (bracket :: stack) : Reader Unit) s () u := by
  have hcomma : bracket.close ≠ ',' := by cases bracket <;> decide
  obtain ⟨ht, hcloses⟩ := afterBlanks_eq closes
  obtain ⟨hu, hafter⟩ := reads_iff.mp after
  unfold Reads run
  rw [skipAfter]
  simp only [hcloses, if_neg hcomma, if_pos, hafter]
  rfl

theorem skipEntry_square (h : Reads (skipValue (.square :: stack) : Reader Unit) s () t) :
    Reads (skipEntry .square stack : Reader Unit) s () t := by
  obtain ⟨ht, hvalue⟩ := reads_iff.mp h
  unfold Reads run
  rw [skipEntry]
  simp only [hvalue]

theorem skipEntry_curly (key : skipKey.Reads s () t)
    (h : Reads (skipValue (.curly :: stack) : Reader Unit) t () u) :
    Reads (skipEntry .curly stack : Reader Unit) s () u := by
  obtain ⟨ht, hkey⟩ := reads_iff.mp key
  obtain ⟨hu, hvalue⟩ := reads_iff.mp h
  unfold Reads run
  rw [skipEntry]
  simp only [hkey, hvalue]
  rfl

end Steps

/-! ### Values -/

/-- What may be passed over: whatever goes on behind it, goes on with it in front. -/
def Passes (s t : List Char) : Prop := ∀ (stack : List Bracket) (u : List Char),
  Reads (skipAfter stack : Reader Unit) t () u → Reads (skipValue stack : Reader Unit) s () u

/-- The same of an entry of a bracket. -/
def PassesEntry (bracket : Bracket) (s t : List Char) : Prop :=
  ∀ (stack : List Bracket) (u : List Char),
    Reads (skipAfter (bracket :: stack) : Reader Unit) t () u →
      Reads (skipEntry bracket stack : Reader Unit) s () u

/-- The blanks in front of an entry are passed over with it. -/
def PassesSpan (bracket : Bracket) (span : List Char × List Char) : Prop :=
  ∀ s, s.dropWhile isBlank = span.1.dropWhile isBlank → PassesEntry bracket s span.2

theorem skipAfter_of_spans {bracket : Bracket} {s t : List Char}
    {spans : List (List Char × List Char)} (h : Spans bracket s spans t)
    (hentries : ∀ span ∈ spans, PassesSpan bracket span) {stack : List Bracket}
    {u : List Char} (hafter : Reads (skipAfter stack : Reader Unit) t () u) :
    Reads (skipAfter (bracket :: stack) : Reader Unit) s () u := by
  induction h with
  | close closed => exact skipAfter_close closed hafter
  | more comma begins _ _ ih =>
      obtain ⟨hfirst, hrest⟩ := List.forall_mem_cons.mp hentries
      refine skipAfter_comma comma (hfirst _ ?_ _ _ (ih hrest hafter))
      rw [← begins, List.dropWhile_idempotent]

theorem passes_of_block {bracket : Bracket} {s t u : List Char} {c : Char}
    {spans : List (List Char × List Char)} (begins : s.dropWhile isBlank = c :: t)
    (opens : opened? c = some bracket) (h : Block bracket t spans u)
    (hentries : ∀ span ∈ spans, PassesSpan bracket span) : Passes s u := by
  intro stack v hafter
  cases h with
  | empty closed => exact skipValue_empty begins opens closed hafter
  | first first notClose rest =>
      obtain ⟨hfirst, hrest⟩ := List.forall_mem_cons.mp hentries
      exact skipValue_bracket begins opens first notClose
        (hfirst _ rfl _ _ (skipAfter_of_spans rest hrest hafter))

/-- **What is read as a value is passed over,** and no more and no less of the text is. -/
theorem passes_of_value : ∀ {limit : Nat} {s t : List Char} {v : Json},
    (value limit).Reads s v t → Passes s t := by
  intro limit
  induction limit using Nat.strong_induction_on with
  | _ limit ih =>
      intro s t v h
      obtain ⟨u, hglimpse, hinside⟩ := reads_value.mp h
      obtain ⟨c, w, begins, hbegun⟩ := begun_of_glimpse hglimpse
      cases v with
      | array items =>
          obtain ⟨inner, spans, rfl, hblock, hitems⟩ := hinside
          cases hbegun with
          | scalar _ _ sequence _ => exact absurd rfl sequence
          | sequence opens =>
              refine passes_of_block begins opens hblock fun span hspan s hs => ?_
              obtain ⟨item, -, hitem⟩ := Outcome.exists_of_mem_forall₂ hitems span hspan
              rw [← reads_value_dropWhile, ← hs, reads_value_dropWhile] at hitem
              intro stack v hafter
              exact skipEntry_square (ih inner (Nat.lt_succ_self _) hitem _ _ hafter)
      | object members =>
          obtain ⟨inner, spans, rfl, hblock, hmembers⟩ := hinside
          cases hbegun with
          | scalar _ _ _ map => exact absurd rfl map
          | map opens =>
              refine passes_of_block begins opens hblock fun span hspan s hs => ?_
              obtain ⟨member, -, x, hkey, hvalue⟩ := Outcome.exists_of_mem_forall₂ hmembers span hspan
              rw [← reads_key_dropWhile, ← hs, reads_key_dropWhile] at hkey
              intro stack v hafter
              exact skipEntry_curly (skips_key hkey)
                (ih inner (Nat.lt_succ_self _) hvalue _ _ hafter)
      | _ =>
          subst hinside
          intro stack v hafter
          cases hbegun with
          | scalar opens skips _ _ => exact skipValue_scalar begins opens skips hafter

/-- A value is passed over as it is read. -/
theorem reads_skip {limit : Nat} {s t : List Char} {v : Json} (h : (value limit).Reads s v t)
    {u : List Char} : skip.Reads s () u ↔ t = u := by
  have hskip : skip.Reads s () t := passes_of_value h [] t skipAfter_nil
  refine ⟨fun hu => (hskip.unique hu).2, ?_⟩
  rintro rfl
  exact hskip

end Testbed.Json.Reader

/-
Reading what was printed.

A string is written mark by mark, and every mark is read as the character that it was written
for.  What stands between the parts of a value is blank, so it is passed over, and the entries
of a bracket are found in the spans in which they were printed.  So a value is read back from
its text in every style, if its numbers are read back from theirs and the reader allows as many
brackets inside one another as there are in it.
-/
import Testbed.Proofs.Json.Numeral
import Testbed.Proofs.Json.Proper

namespace Testbed.Json

open Reader

/-! ### Strings -/

theorem reads_shortEscape {x c : Char} (hx : x ≠ 'u') (hc : shortEscape? x = some c)
    (s : List Char) : escaped.Reads (x :: s) c s := by
  unfold escaped
  rw [reads_next_bind]
  dsimp only [List.head?_cons, List.tail_cons]
  split
  · rename_i h
    cases h
  · rename_i h
    exact absurd (Option.some.inj h) hx
  · rename_i d h
    cases h
    rw [hc]
    exact reads_pure.mpr ⟨rfl, rfl⟩

theorem reads_hexUnit {a b c d : Char} {n : Nat} (h : unit? a b c d = some n) (s : List Char) :
    hexUnit.Reads (a :: b :: c :: d :: s) n s := by
  refine reads_iff.mpr ⟨by simp; omega, ?_⟩
  unfold hexUnit
  simp only [h]

/-- The two digits in which a control character is written spell its number. -/
theorem unit?_hexDigit : ∀ n, n < 32 →
    unit? '0' '0' (hexDigit (n / 16)) (hexDigit (n % 16)) = some n := by decide

theorem reads_control {c : Char} (h : c.toNat < 32) (s : List Char) : escaped.Reads
    ('u' :: '0' :: '0' :: hexDigit (c.toNat / 16) :: hexDigit (c.toNat % 16) :: s) c s := by
  have hunit := reads_hexUnit (unit?_hexDigit c.toNat h) s
  unfold escaped
  rw [reads_next_bind]
  show unicodeEscape.Reads _ _ _
  refine hunit.bind ?_
  rw [if_neg (by omega), if_pos (by omega), Char.ofNat_toNat]
  exact reads_pure.mpr ⟨rfl, rfl⟩

/-- A character is written behind a backslash, as its number, or as it is. -/
theorem escape_cases (c : Char) :
    (∃ x, x ≠ 'u' ∧ shortEscape? x = some c ∧ escape c = ['\\', x])
      ∨ (c.toNat < 32 ∧ escape c
        = ['\\', 'u', '0', '0', hexDigit (c.toNat / 16), hexDigit (c.toNat % 16)])
      ∨ (c ≠ '"' ∧ c ≠ '\\' ∧ ¬c.toNat < 32 ∧ escape c = [c]) := by
  by_cases hquote : c = '"'
  · subst hquote
    exact .inl ⟨'"', by decide, rfl, rfl⟩
  by_cases hslash : c = '\\'
  · subst hslash
    exact .inl ⟨'\\', by decide, rfl, rfl⟩
  by_cases hback : c = '\x08'
  · subst hback
    exact .inl ⟨'b', by decide, rfl, rfl⟩
  by_cases hfeed : c = '\x0c'
  · subst hfeed
    exact .inl ⟨'f', by decide, rfl, rfl⟩
  by_cases hline : c = '\n'
  · subst hline
    exact .inl ⟨'n', by decide, rfl, rfl⟩
  by_cases hreturn : c = '\r'
  · subst hreturn
    exact .inl ⟨'r', by decide, rfl, rfl⟩
  by_cases htab : c = '\t'
  · subst htab
    exact .inl ⟨'t', by decide, rfl, rfl⟩
  by_cases hcontrol : c.toNat < 32
  · refine .inr (.inl ⟨hcontrol, ?_⟩)
    simp only [escape, if_neg hquote, if_neg hslash, if_neg hback, if_neg hfeed, if_neg hline,
      if_neg hreturn, if_neg htab, if_pos hcontrol]
  · refine .inr (.inr ⟨hquote, hslash, hcontrol, ?_⟩)
    simp only [escape, if_neg hquote, if_neg hslash, if_neg hback, if_neg hfeed, if_neg hline,
      if_neg hreturn, if_neg htab, if_neg hcontrol]

/-- **Every mark is read as the character that it was written for.** -/
theorem marks_escape_append {c : Char} {s t cs : List Char}
    (h : Reads (marks escaped id : Reader (List Char)) s cs t) :
    Reads (marks escaped id : Reader (List Char)) (escape c ++ s) (c :: cs) t := by
  obtain ⟨x, hx, hc, heq⟩ | ⟨hcontrol, heq⟩ | ⟨hquote, hslash, hcontrol, heq⟩ := escape_cases c
  · rw [heq]
    exact marks_escape (reads_shortEscape hx hc s) h
  · rw [heq]
    exact marks_escape (reads_control hcontrol s) h
  · rw [heq]
    exact marks_plain hquote hslash hcontrol h

theorem reads_stringRest (text : String) (t : List Char) :
    stringRest.Reads (text.toList.flatMap escape ++ '"' :: t) text t := by
  have hmarks : ∀ cs : List Char,
      Reads (marks escaped id : Reader (List Char)) (cs.flatMap escape ++ '"' :: t) cs t := by
    intro cs
    induction cs with
    | nil => exact marks_close
    | cons c cs ih =>
        rw [List.flatMap_cons, List.append_assoc]
        exact marks_escape_append ih
  exact (hmarks text.toList).bind (reads_pure.mpr ⟨String.ofList_toList, rfl⟩)

theorem quote_append (text : String) (t : List Char) :
    (quote text).toList ++ t = '"' :: (text.toList.flatMap escape ++ '"' :: t) := by
  unfold quote
  simp

/-! ### Parts of values -/

/-- What a style puts between the parts of a value is blank, but for the colon. -/
structure Style.Blank (style : Style) : Prop where
  separator : ∀ depth, ∀ c ∈ (style.separator depth).toList, isBlank c = true
  colon : ∃ blanks, style.colon.toList = ':' :: blanks ∧ ∀ c ∈ blanks, isBlank c = true

theorem Style.blank_ofPretty (pretty : Bool) : (Style.ofPretty pretty).Blank := by
  cases pretty with
  | false =>
      refine ⟨fun depth c hc => ?_, [], rfl, fun _ hc => absurd hc List.not_mem_nil⟩
      cases hc
  | true =>
      refine ⟨fun depth c hc => ?_, [' '], rfl, List.forall_mem_singleton.mpr rfl⟩
      simp only [ofPretty, if_true, indented, String.toList_ofList, List.mem_cons,
        List.mem_replicate] at hc
      rcases hc with rfl | ⟨-, rfl⟩
      · rfl
      · rfl

theorem stops_blanks {blanks s : List Char} (hblanks : ∀ c ∈ blanks, isBlank c = true)
    (hs : Stops goesOn s) : Stops goesOn (blanks ++ s) := by
  refine Stops.append (fun c hc => ?_) hs
  have hblank := hblanks c (List.mem_of_mem_head? hc)
  simp only [isBlank, Bool.or_eq_true, beq_iff_eq] at hblank
  rcases hblank with ((rfl | rfl) | rfl) | rfl <;> decide

/-! ### Brackets -/

section Entries

variable {α : Type} {Entry : List Char → α → List Char → Prop} {text : α → List Char}
  {bracket : Bracket} {separator blanks : List Char}

/-- What is printed behind an entry: the others, each behind a comma, and the close. -/
def laterText (bracket : Bracket) (separator blanks : List Char) (text : α → List Char)
    (items : List α) (rest : List Char) : List Char :=
  (items.flatMap fun a => ',' :: (separator ++ text a)) ++ (blanks ++ bracket.close :: rest)

theorem laterText_cons (a : α) (items : List α) (rest : List Char) :
    laterText bracket separator blanks text (a :: items) rest
      = ',' :: (separator ++ (text a ++ laterText bracket separator blanks text items rest)) := by
  simp [laterText]

theorem stops_laterText (hblanks : ∀ c ∈ blanks, isBlank c = true) (items : List α)
    (rest : List Char) : Stops goesOn (laterText bracket separator blanks text items rest) := by
  cases items with
  | nil =>
      have hclose : Stops goesOn (bracket.close :: rest) := by
        refine stops_cons.mpr ?_
        cases bracket <;> decide
      have hstops : Stops goesOn (blanks ++ bracket.close :: rest) := stops_blanks hblanks hclose
      exact hstops
  | cons a items =>
      rw [laterText_cons]
      exact stops_cons.mpr (by decide)

variable (hbegins : ∀ s a t, Entry s a t →
    ∃ c u, s.dropWhile isBlank = c :: u ∧ c ≠ bracket.close ∧ Entry (c :: u) a t)
  (hseparator : ∀ c ∈ separator, isBlank c = true) (hblanks : ∀ c ∈ blanks, isBlank c = true)

include hbegins hseparator hblanks

/-- Printed entries behind another one stand in spans in which they are read. -/
theorem spans_of_printed {items : List α}
    (hread : ∀ a ∈ items, ∀ t, Stops goesOn t → Entry (text a ++ t) a t) (rest : List Char) :
    ∃ spans, Spans bracket (laterText bracket separator blanks text items rest) spans rest
      ∧ List.Forall₂ (fun span a => Entry span.1 a span.2) spans items := by
  induction items with
  | nil =>
      refine ⟨[], .close ?_, .nil⟩
      have hclose : (bracket.close :: rest).dropWhile isBlank = bracket.close :: rest := by
        cases bracket <;> rfl
      exact (dropWhile_blanks hblanks _).trans hclose
  | cons a items ih =>
      obtain ⟨hfirst, hlater⟩ := List.forall_mem_cons.mp hread
      obtain ⟨spans, hspans, hitems⟩ := ih hlater
      obtain ⟨c, u, hc, hclose, hentry⟩ :=
        hbegins _ _ _ (hfirst _ (stops_laterText hblanks items rest))
      refine ⟨(c :: u, _) :: spans, ?_, .cons hentry hitems⟩
      rw [laterText_cons]
      exact .more rfl ((dropWhile_blanks hseparator _).trans hc) hclose hspans

/-- Printed entries stand in the spans of their bracket. -/
theorem block_of_printed {a : α} {items : List α}
    (hread : ∀ b ∈ a :: items, ∀ t, Stops goesOn t → Entry (text b ++ t) b t) (rest : List Char) :
    ∃ spans, Block bracket
        (separator ++ (text a ++ laterText bracket separator blanks text items rest)) spans rest
      ∧ List.Forall₂ (fun span b => Entry span.1 b span.2) spans (a :: items) := by
  obtain ⟨hfirst, hlater⟩ := List.forall_mem_cons.mp hread
  obtain ⟨spans, hspans, hitems⟩ := spans_of_printed hbegins hseparator hblanks hlater rest
  obtain ⟨c, u, hc, hclose, hentry⟩ := hbegins _ _ _ (hfirst _ (stops_laterText hblanks items rest))
  refine ⟨(c :: u, _) :: spans, ?_, .cons hentry hitems⟩
  exact .first ((dropWhile_blanks hseparator _).trans hc) hclose hspans

end Entries

/-! ### Values -/

mutual

/-- How many brackets stand inside one another in a value. -/
def depth : Json → Nat
  | .array items => depthItems items + 1
  | .object members => depthMembers members + 1
  | .null | .boolean _ | .number _ | .string _ => 0

/-- The greatest depth of some items. -/
def depthItems : List Json → Nat
  | [] => 0
  | v :: rest => max (depth v) (depthItems rest)

/-- The greatest depth of the values of some members. -/
def depthMembers : List (String × Json) → Nat
  | [] => 0
  | (_, v) :: rest => max (depth v) (depthMembers rest)

end

theorem depth_le_depthItems {items : List Json} : ∀ v ∈ items, v.depth ≤ depthItems items := by
  induction items with
  | nil =>
      intro v hv
      cases hv
  | cons w rest ih =>
      intro v hv
      rw [depthItems]
      rcases List.mem_cons.mp hv with rfl | hv
      · exact Nat.le_max_left _ _
      · exact Nat.le_trans (ih v hv) (Nat.le_max_right _ _)

theorem depth_le_depthMembers {members : Members} :
    ∀ entry ∈ members, entry.2.depth ≤ depthMembers members := by
  induction members with
  | nil =>
      intro entry hentry
      cases hentry
  | cons first rest ih =>
      intro entry hentry
      obtain ⟨k, v⟩ := first
      rw [depthMembers]
      rcases List.mem_cons.mp hentry with rfl | hentry
      · exact Nat.le_max_left _ _
      · exact Nat.le_trans (ih entry hentry) (Nat.le_max_right _ _)

section Style

variable (style : Style)

/-- What is printed for a member. -/
def memberText (depth : Nat) (member : String × Json) : List Char :=
  (quote member.1).toList ++ (style.colon.toList ++ (member.2.print style depth).toList)

theorem toList_printItems (depth : Nat) (items : List Json) :
    (printItems style depth items).toList = items.flatMap fun v =>
      ',' :: ((style.separator depth).toList ++ (v.print style depth).toList) := by
  induction items with
  | nil => rfl
  | cons v rest ih =>
      rw [printItems]
      simp [ih]

theorem toList_printMembers (depth : Nat) (members : Members) :
    (printMembers style depth members).toList = members.flatMap fun member =>
      ',' :: ((style.separator depth).toList ++ memberText style depth member) := by
  induction members with
  | nil => rfl
  | cons member rest ih =>
      obtain ⟨k, v⟩ := member
      rw [printMembers]
      simp [ih, memberText]

theorem print_array_append (depth : Nat) (v : Json) (rest : List Json) (t : List Char) :
    (print style depth (.array (v :: rest))).toList ++ t
      = '[' :: ((style.separator (depth + 1)).toList ++ ((print style (depth + 1) v).toList
        ++ laterText .square (style.separator (depth + 1)).toList (style.separator depth).toList
          (fun v => (print style (depth + 1) v).toList) rest t)) := by
  rw [print]
  simp [toList_printItems, laterText, Bracket.close]

theorem print_object_append (depth : Nat) (member : String × Json) (rest : Members)
    (t : List Char) : (print style depth (.object (member :: rest))).toList ++ t
      = '\x7b' :: ((style.separator (depth + 1)).toList ++ (memberText style (depth + 1) member
        ++ laterText .curly (style.separator (depth + 1)).toList (style.separator depth).toList
          (memberText style (depth + 1)) rest t)) := by
  rw [print]
  simp [toList_printMembers, memberText, laterText, Bracket.close]

/-! ### Beginnings -/

theorem reads_glimpse_number {s t : List Char} {n : Number} (h : Reader.number.Reads s n t) :
    Reader.glimpse.Reads s (.number n) t := by
  obtain ⟨c, u, rfl, hc⟩ := exists_head_of_number h
  have hother : isBlank c = false ∧ c ≠ 'n' ∧ c ≠ 't' ∧ c ≠ 'f' := by
    rcases hc with rfl | hdigit
    · decide
    · have hdistinct : ∀ d, d.isDigit = false → c ≠ d := by
        rintro d hd rfl
        rw [hd] at hdigit
        cases hdigit
      refine ⟨?_, hdistinct _ (by decide), hdistinct _ (by decide), hdistinct _ (by decide)⟩
      simp [isBlank, hdistinct]
  obtain ⟨hblank, hn, ht, hf⟩ := hother
  unfold Reader.glimpse
  rw [reads_peekPastBlanks_bind, List.dropWhile_cons_of_neg (by simp [hblank]), List.head?_cons]
  dsimp only
  rw [if_neg hn, if_neg ht, if_neg hf, if_pos hc]
  exact h.bind (reads_pure.mpr ⟨rfl, rfl⟩)

theorem reads_glimpse_quote (text : String) (t : List Char) :
    Reader.glimpse.Reads ((quote text).toList ++ t) (.string text) t := by
  have hrest := reads_stringRest text t
  rw [quote_append]
  unfold Reader.glimpse
  rw [reads_peekPastBlanks_bind]
  show Reads (next >>= _) _ _ _
  rw [reads_next_bind]
  exact hrest.bind (reads_pure.mpr ⟨rfl, rfl⟩)

theorem reads_glimpse_null (t : List Char) :
    Reader.glimpse.Reads ("null".toList ++ t) .null t := by
  unfold Reader.glimpse
  rw [reads_peekPastBlanks_bind]
  exact (reads_word.mpr rfl).bind (reads_pure.mpr ⟨rfl, rfl⟩)

theorem reads_glimpse_boolean (depth : Nat) (value : Bool) (t : List Char) :
    Reader.glimpse.Reads ((print style depth (.boolean value)).toList ++ t) (.boolean value) t := by
  cases value with
  | true =>
      rw [print]
      unfold Reader.glimpse
      rw [reads_peekPastBlanks_bind]
      exact (reads_word.mpr rfl).bind (reads_pure.mpr ⟨rfl, rfl⟩)
  | false =>
      rw [print]
      unfold Reader.glimpse
      rw [reads_peekPastBlanks_bind]
      exact (reads_word.mpr rfl).bind (reads_pure.mpr ⟨rfl, rfl⟩)

theorem reads_glimpse_sequence (t : List Char) :
    Reader.glimpse.Reads ('[' :: t) .sequence ('[' :: t) := by
  unfold Reader.glimpse
  rw [reads_peekPastBlanks_bind]
  exact reads_pure.mpr ⟨rfl, rfl⟩

theorem reads_glimpse_map (t : List Char) :
    Reader.glimpse.Reads ('\x7b' :: t) .map ('\x7b' :: t) := by
  unfold Reader.glimpse
  rw [reads_peekPastBlanks_bind]
  exact reads_pure.mpr ⟨rfl, rfl⟩

variable {style} (hstyle : style.Blank)

include hstyle

theorem reads_printed_key (name : String) (t : List Char) :
    ∃ blanks, (∀ c ∈ blanks, isBlank c = true) ∧ (key fun _ => .ok ()).Reads
      ((quote name).toList ++ (style.colon.toList ++ t)) name (blanks ++ t) := by
  obtain ⟨blanks, hcolon, hblanks⟩ := hstyle.colon
  refine ⟨blanks, hblanks, ?_⟩
  rw [quote_append, hcolon]
  exact reads_key.mpr ⟨_, _, rfl, reads_stringRest name _, rfl, rfl⟩

theorem reads_memberText {limit depth : Nat} {member : String × Json} {t : List Char}
    (h : (value limit).Reads ((member.2.print style depth).toList ++ t) member.2 t) :
    Member (value limit) (memberText style depth member ++ t) member t := by
  obtain ⟨blanks, hblanks, hkey⟩ :=
    reads_printed_key hstyle member.1 ((member.2.print style depth).toList ++ t)
  have hvalue : (value limit).Reads (blanks ++ ((member.2.print style depth).toList ++ t))
      member.2 t := by
    rw [← reads_value_dropWhile, dropWhile_blanks hblanks]
    exact reads_value_dropWhile.mpr h
  rw [memberText, List.append_assoc, List.append_assoc]
  exact ⟨_, hkey, hvalue⟩

theorem reads_printed_array {limit depth : Nat} {items : List Json}
    (hread : ∀ v ∈ items, ∀ u, Stops goesOn u →
      (value limit).Reads ((v.print style (depth + 1)).toList ++ u) v u) (t : List Char) :
    (value (limit + 1)).Reads ((print style depth (.array items)).toList ++ t)
      (.array items) t := by
  cases items with
  | nil =>
      rw [print]
      exact reads_value.mpr ⟨_, reads_glimpse_sequence _, limit, [], rfl, .empty rfl, .nil⟩
  | cons first rest =>
      obtain ⟨spans, hblock, hitems⟩ := block_of_printed (value_begins limit .square)
        (hstyle.separator (depth + 1)) (hstyle.separator depth) hread t
      rw [print_array_append]
      exact reads_value.mpr ⟨_, reads_glimpse_sequence _, limit, spans, rfl, hblock, hitems⟩

theorem reads_printed_object {limit depth : Nat} {members : Members}
    (hread : ∀ member ∈ members, ∀ u, Stops goesOn u →
      Member (value limit) (memberText style (depth + 1) member ++ u) member u) (t : List Char) :
    (value (limit + 1)).Reads ((print style depth (.object members)).toList ++ t)
      (.object members) t := by
  cases members with
  | nil =>
      rw [print]
      exact reads_value.mpr ⟨_, reads_glimpse_map _, limit, [], rfl, .empty rfl, .nil⟩
  | cons first rest =>
      obtain ⟨spans, hblock, hmembers⟩ := block_of_printed (member_begins limit)
        (hstyle.separator (depth + 1)) (hstyle.separator depth) hread t
      rw [print_object_append]
      exact reads_value.mpr ⟨_, reads_glimpse_map _, limit, spans, rfl, hblock, hmembers⟩

/-- **A value is read back from its text, in front of whatever does not go on with a number.** -/
theorem reads_print {v : Json} (hnumbered : v.Numbered Number.Restorable) :
    ∀ {limit depth : Nat} {t : List Char}, v.depth ≤ limit → Stops goesOn t →
      (value limit).Reads ((v.print style depth).toList ++ t) v t := by
  induction hnumbered with
  | null =>
      intro limit depth t _ _
      rw [print]
      exact reads_value.mpr ⟨t, reads_glimpse_null t, rfl⟩
  | boolean value =>
      intro limit depth t _ _
      exact reads_value.mpr ⟨t, reads_glimpse_boolean style depth value t, rfl⟩
  | @number n fits =>
      intro limit depth t _ hstops
      rw [print, String.toList_ofList]
      exact reads_value.mpr ⟨t, reads_glimpse_number (fits.reads.number_append hstops), rfl⟩
  | string text =>
      intro limit depth t _ _
      rw [print]
      exact reads_value.mpr ⟨t, reads_glimpse_quote text t, rfl⟩
  | @array items each ih =>
      intro limit depth t hdepth _
      rw [Json.depth] at hdepth
      obtain ⟨inner, rfl⟩ := Nat.exists_eq_add_one.mpr (Nat.zero_lt_of_lt hdepth)
      refine reads_printed_array hstyle (fun v hv u hu => ?_) t
      have hle := depth_le_depthItems v hv
      exact ih v hv (by omega) hu
  | @object members each ih =>
      intro limit depth t hdepth _
      rw [Json.depth] at hdepth
      obtain ⟨inner, rfl⟩ := Nat.exists_eq_add_one.mpr (Nat.zero_lt_of_lt hdepth)
      refine reads_printed_object hstyle (fun member hmember u hu => ?_) t
      have hle := depth_le_depthMembers member hmember
      exact reads_memberText hstyle (ih member hmember (by omega) hu)

end Style

end Testbed.Json

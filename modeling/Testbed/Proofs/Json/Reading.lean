/-
What readers take.

`Reads` says what a reader makes of the front of a text and what it leaves.  A reader that
is put together from others reads what these read one after the other.

A bracket is read entry by entry, and what an entry is read as does not matter for where
the next one begins.  So `Block` tells of the text alone which spans the entries of a
bracket take; a bracket is read exactly if its entries can be read span by span, each
from the state that the one before it left.  All that is read of arrays and objects goes
through this description: two readers that agree on every span agree on the bracket.
-/
import Testbed.Json.Reader
import Mathlib.Data.List.DropRight
import Mathlib.Data.List.Forall2

namespace Testbed.Json.Reader

variable {α β σ : Type}

/-- A reader reads `a` off the front of `s` and leaves `t`. -/
def Reads (r : Reader α) (s : List Char) (a : α) (t : List Char) : Prop := r.run s = .ok (a, t)

theorem reads_iff {r : Reader α} {s : List Char} {a : α} {t : List Char} :
    r.Reads s a t ↔ ∃ h, r s = .ok (a, ⟨t, h⟩) := by
  unfold Reads run
  cases r s with
  | error f => simp
  | ok found =>
      obtain ⟨b, ⟨u, hu⟩⟩ := found
      simp only [Except.ok.injEq, Prod.mk.injEq, Subtype.mk.injEq]
      refine ⟨?_, ?_⟩
      · rintro ⟨rfl, rfl⟩
        exact ⟨hu, rfl, rfl⟩
      · rintro ⟨_, rfl, rfl⟩
        exact ⟨rfl, rfl⟩

/-- A reader reads one thing only, and leaves one rest. -/
theorem Reads.unique {r : Reader α} {s : List Char} {a b : α} {t u : List Char}
    (h : r.Reads s a t) (h' : r.Reads s b u) : a = b ∧ t = u := by
  have heq := h.symm.trans h'
  cases heq
  exact ⟨rfl, rfl⟩

/-! ### Steps -/

@[simp] theorem reads_pure {s : List Char} {a b : α} {t : List Char} :
    (pure a : Reader α).Reads s b t ↔ a = b ∧ s = t := by
  show (Except.ok (a, s) : Except Fault (α × List Char)) = _ ↔ _
  rw [Except.ok.injEq, Prod.mk.injEq]

/-- Two steps read what the first one reads, and then what the second one reads of the rest. -/
theorem reads_bind {r : Reader α} {next : α → Reader β} {s : List Char} {b : β} {t : List Char} :
    (r >>= next).Reads s b t ↔ ∃ a u, r.Reads s a u ∧ (next a).Reads u b t := by
  have hbind : (r >>= next) s = andThen r next s := rfl
  simp only [reads_iff, hbind, andThen]
  refine ⟨?_, ?_⟩
  · rintro ⟨ht, h⟩
    split at h
    · cases h
    · rename_i a u hu hr
      split at h
      · cases h
      · rename_i c rest hnext
        cases h
        exact ⟨a, u, ⟨hu, hr⟩, rest.property, hnext⟩
  · rintro ⟨a, u, ⟨hu, hr⟩, hv, hnext⟩
    exact ⟨Nat.le_trans hv hu, by simp only [hr, hnext]; rfl⟩

theorem Reads.bind {r : Reader α} {next : α → Reader β} {s u t : List Char} {a : α} {b : β}
    (h : r.Reads s a u) (hnext : (next a).Reads u b t) : (r >>= next).Reads s b t :=
  reads_bind.mpr ⟨a, u, h, hnext⟩

theorem Reads.bind_iff {r : Reader α} {next : α → Reader β} {s u t : List Char} {a : α} {b : β}
    (h : r.Reads s a u) : (r >>= next).Reads s b t ↔ (next a).Reads u b t := by
  refine ⟨?_, h.bind⟩
  intro hnext
  obtain ⟨a', u', h', hnext⟩ := reads_bind.mp hnext
  obtain ⟨rfl, rfl⟩ := h.unique h'
  exact hnext

@[simp] theorem not_reads_fail {f : Fault} {s : List Char} {a : α} {t : List Char} :
    ¬ (fail f).Reads s a t := by
  intro h
  cases h

@[simp] theorem not_reads_defect {d : Defect} {s : List Char} {a : α} {t : List Char} :
    ¬ (defect d).Reads s a t := not_reads_fail

theorem reads_ofExcept {answer : Except Fault α} {s : List Char} {a : α} {t : List Char} :
    (ofExcept answer).Reads s a t ↔ answer = .ok a ∧ s = t := by
  cases answer with
  | error f =>
      refine iff_of_false (fun h => ?_) fun h => ?_
      · cases h
      · cases h.1
  | ok b =>
      rw [Except.ok.injEq]
      exact reads_pure

@[simp] theorem reads_peek {s : List Char} {o : Option Char} {t : List Char} :
    peek.Reads s o t ↔ s.head? = o ∧ s = t := by
  show (Except.ok (s.head?, s) : Except Fault (Option Char × List Char)) = _ ↔ _
  rw [Except.ok.injEq, Prod.mk.injEq]

@[simp] theorem reads_next {s : List Char} {o : Option Char} {t : List Char} :
    next.Reads s o t ↔ s.head? = o ∧ s.tail = t := by
  cases s with
  | nil =>
      show (Except.ok (none, []) : Except Fault (Option Char × List Char)) = _ ↔ _
      rw [Except.ok.injEq, Prod.mk.injEq]
      rfl
  | cons c u =>
      show (Except.ok (some c, u) : Except Fault (Option Char × List Char)) = _ ↔ _
      rw [Except.ok.injEq, Prod.mk.injEq]
      rfl

@[simp] theorem reads_takeWhile {p : Char → Bool} {s found t : List Char} :
    (takeWhile p).Reads s found t ↔ s.takeWhile p = found ∧ s.dropWhile p = t := by
  show (Except.ok (s.takeWhile p, s.dropWhile p) : Except Fault (List Char × List Char)) = _ ↔ _
  rw [Except.ok.injEq, Prod.mk.injEq]

@[simp] theorem reads_peek_bind {next : Option Char → Reader β} {s : List Char} {b : β}
    {t : List Char} : (peek >>= next).Reads s b t ↔ (next s.head?).Reads s b t := by
  rw [reads_bind]
  simp

@[simp] theorem reads_next_bind {then' : Option Char → Reader β} {s : List Char} {b : β}
    {t : List Char} : (next >>= then').Reads s b t ↔ (then' s.head?).Reads s.tail b t := by
  rw [reads_bind]
  simp

theorem reads_peekPastBlanks {s : List Char} {o : Option Char} {t : List Char} :
    peekPastBlanks.Reads s o t ↔ s.dropWhile isBlank = t ∧ t.head? = o := by
  unfold peekPastBlanks
  simp only [reads_bind, reads_takeWhile, reads_peek]
  refine ⟨?_, ?_⟩
  · rintro ⟨_, _, ⟨-, rfl⟩, rfl, rfl⟩
    exact ⟨rfl, rfl⟩
  · rintro ⟨rfl, rfl⟩
    exact ⟨_, _, ⟨rfl, rfl⟩, rfl, rfl⟩

theorem reads_peekPastBlanks_bind {then' : Option Char → Reader β} {s : List Char} {b : β}
    {t : List Char} : (peekPastBlanks >>= then').Reads s b t
      ↔ (then' (s.dropWhile isBlank).head?).Reads (s.dropWhile isBlank) b t := by
  rw [reads_bind]
  simp only [reads_peekPastBlanks]
  refine ⟨?_, ?_⟩
  · rintro ⟨_, _, ⟨rfl, rfl⟩, h⟩
    exact h
  · intro h
    exact ⟨_, _, ⟨rfl, rfl⟩, h⟩

theorem reads_word : ∀ {letters s t : List Char},
    (word letters).Reads s () t ↔ s = letters ++ t := by
  intro letters
  induction letters with
  | nil =>
      intro s t
      rw [word, reads_pure]
      simp
  | cons c rest ih =>
      intro s t
      rw [word, reads_bind]
      simp only [reads_next]
      refine ⟨?_, ?_⟩
      · rintro ⟨o, u, ⟨rfl, rfl⟩, h⟩
        cases s with
        | nil => exact absurd h not_reads_defect
        | cons d u =>
            by_cases hd : d = c
            · subst hd
              simp only [List.head?_cons, if_pos, List.tail_cons, ih] at h
              rw [h]
              rfl
            · simp only [List.head?_cons, if_neg hd, not_reads_defect] at h
      · rintro rfl
        refine ⟨some c, rest ++ t, ⟨rfl, rfl⟩, ?_⟩
        simp only [if_pos]
        exact ih.mpr rfl

/-! ### Blanks in front -/

theorem dropWhile_blanks {blanks : List Char} (h : ∀ c ∈ blanks, isBlank c = true) (s : List Char) :
    (blanks ++ s).dropWhile isBlank = s.dropWhile isBlank :=
  List.dropWhile_append_of_pos h

theorem reads_glimpse_dropWhile {s : List Char} {g : Glimpse} {t : List Char} :
    glimpse.Reads (s.dropWhile isBlank) g t ↔ glimpse.Reads s g t := by
  unfold glimpse
  rw [reads_peekPastBlanks_bind, reads_peekPastBlanks_bind, List.dropWhile_idempotent]

/-- No value begins like the end of a bracket. -/
theorem exists_head_of_glimpse {s : List Char} {g : Glimpse} {t : List Char}
    (h : glimpse.Reads s g t) (bracket : Bracket) :
    ∃ c u, s.dropWhile isBlank = c :: u ∧ c ≠ bracket.close := by
  unfold glimpse at h
  rw [reads_peekPastBlanks_bind] at h
  cases hs : s.dropWhile isBlank with
  | nil =>
      rw [hs] at h
      exact absurd h not_reads_defect
  | cons c u =>
      refine ⟨c, u, rfl, ?_⟩
      rintro rfl
      rw [hs] at h
      cases bracket with
      | square => exact absurd h not_reads_defect
      | curly => exact absurd h not_reads_defect

/-- A key is a string in front of a colon, which the check lets pass. -/
theorem reads_key {check : String → Except Fault Unit} {s : List Char} {name : String}
    {t : List Char} : (key check).Reads s name t ↔ ∃ u v, s.dropWhile isBlank = '"' :: u
      ∧ stringRest.Reads u name v ∧ check name = .ok () ∧ v.dropWhile isBlank = ':' :: t := by
  unfold key
  rw [reads_peekPastBlanks_bind]
  refine ⟨?_, ?_⟩
  · intro h
    split at h
    · rename_i hquote
      obtain ⟨u, hu⟩ := List.head?_eq_some_iff.mp hquote
      rw [reads_next_bind, hu] at h
      obtain ⟨found, v, hfound, h⟩ := reads_bind.mp h
      obtain ⟨_, _, hcheck, h⟩ := reads_bind.mp h
      obtain ⟨hpasses, rfl⟩ := reads_ofExcept.mp hcheck
      rw [reads_peekPastBlanks_bind] at h
      split at h
      · rename_i hcolon
        obtain ⟨w, hw⟩ := List.head?_eq_some_iff.mp hcolon
        rw [reads_next_bind, hw] at h
        obtain ⟨rfl, rfl⟩ := reads_pure.mp h
        exact ⟨u, v, hu, hfound, hpasses, hw⟩
      · exact absurd h not_reads_defect
      · exact absurd h not_reads_defect
    · exact absurd h not_reads_defect
    · exact absurd h not_reads_defect
  · rintro ⟨u, v, hu, hname, hcheck, hv⟩
    rw [hu]
    show Reads (next >>= _) _ _ _
    rw [reads_next_bind]
    refine hname.bind ((reads_ofExcept.mpr ⟨hcheck, rfl⟩ : Reads _ v () v).bind ?_)
    rw [reads_peekPastBlanks_bind, hv]
    show Reads (next >>= _) _ _ _
    rw [reads_next_bind]
    exact reads_pure.mpr ⟨rfl, rfl⟩

theorem reads_key_dropWhile {check : String → Except Fault Unit} {s : List Char} {name : String}
    {t : List Char} :
    (key check).Reads (s.dropWhile isBlank) name t ↔ (key check).Reads s name t := by
  simp only [reads_key, List.dropWhile_idempotent]

/-- Which keys are let pass makes no difference to how they are read. -/
theorem reads_key_check {check : String → Except Fault Unit} {s : List Char} {name : String}
    {t : List Char} :
    (key check).Reads s name t ↔ (key fun _ => .ok ()).Reads s name t ∧ check name = .ok () := by
  simp only [reads_key]
  refine ⟨?_, ?_⟩
  · rintro ⟨u, v, hu, hname, hcheck, hv⟩
    exact ⟨⟨u, v, hu, hname, trivial, hv⟩, hcheck⟩
  · rintro ⟨⟨u, v, hu, hname, -, hv⟩, hcheck⟩
    exact ⟨u, v, hu, hname, hcheck, hv⟩

/-! ### Strings -/

section Marks

variable {α : Type} {escape : Reader α} {plain : Char → α} {s t : List Char} {as : List α}

theorem marks_close : Reads (marks escape plain : Reader (List α)) ('"' :: t) [] t := by
  refine reads_iff.mpr ⟨?_, ?_⟩
  · simp
  · rw [marks, if_pos rfl]
    rfl

theorem marks_plain {c : Char} (hquote : c ≠ '"') (hslash : c ≠ '\\') (hcontrol : ¬c.toNat < 32)
    (h : Reads (marks escape plain : Reader (List α)) s as t) :
    Reads (marks escape plain : Reader (List α)) (c :: s) (plain c :: as) t := by
  obtain ⟨ht, h⟩ := reads_iff.mp h
  refine reads_iff.mpr ⟨Nat.le_succ_of_le ht, ?_⟩
  rw [marks, if_neg hquote, if_neg hslash, if_neg hcontrol]
  simp only [h]
  rfl

theorem marks_escape {a : α} {u : List Char} (ha : escape.Reads s a u)
    (h : Reads (marks escape plain : Reader (List α)) u as t) :
    Reads (marks escape plain : Reader (List α)) ('\\' :: s) (a :: as) t := by
  obtain ⟨hu, ha⟩ := reads_iff.mp ha
  obtain ⟨ht, h⟩ := reads_iff.mp h
  refine reads_iff.mpr ⟨Nat.le_succ_of_le (Nat.le_trans ht hu), ?_⟩
  rw [marks, if_neg (by decide), if_pos rfl]
  simp only [ha, h]
  rfl

end Marks

/-! ### Brackets -/

/-- Behind an entry of a bracket, the other entries take these spans; `t` is left behind the close.
A span is given by the texts in front of it and behind it. -/
inductive Spans (b : Bracket) : List Char → List (List Char × List Char) → List Char → Prop
  | close {s t : List Char} (closed : s.dropWhile isBlank = b.close :: t) : Spans b s [] t
  | more {s u v w t : List Char} {c : Char} {spans : List (List Char × List Char)}
      (comma : s.dropWhile isBlank = ',' :: u) (begins : u.dropWhile isBlank = c :: v)
      (notClose : c ≠ b.close) (rest : Spans b w spans t) : Spans b s ((c :: v, w) :: spans) t

/-- Behind its opening, the entries of a bracket take these spans. -/
inductive Block (b : Bracket) : List Char → List (List Char × List Char) → List Char → Prop
  | empty {s t : List Char} (closed : s.dropWhile isBlank = b.close :: t) : Block b s [] t
  | first {s v w t : List Char} {c : Char} {spans : List (List Char × List Char)}
      (begins : s.dropWhile isBlank = c :: v) (notClose : c ≠ b.close) (rest : Spans b w spans t) :
      Block b s ((c :: v, w) :: spans) t

/-- A step reads every span, from the state that the one before it left. -/
inductive Chain (step : σ → Reader σ) : σ → List (List Char × List Char) → σ → Prop
  | nil (state : σ) : Chain step state [] state
  | cons {state next last : σ} {s t : List Char} {spans : List (List Char × List Char)}
      (first : (step state).Reads s next t) (rest : Chain step next spans last) :
      Chain step state ((s, t) :: spans) last

variable {bracket : Bracket} {step : σ → Reader σ}

theorem afterBlanks_eq {s u : List Char} (h : s.dropWhile isBlank = u) :
    ∃ hu, afterBlanks s = ⟨u, hu⟩ := by
  subst h
  exact ⟨_, rfl⟩

theorem dropWhile_of_afterBlanks {s u : List Char} {hu : u.length ≤ s.length}
    (h : afterBlanks s = ⟨u, hu⟩) : s.dropWhile isBlank = u :=
  congrArg Subtype.val h

theorem spans_of_laterEntries {state last : σ} {s t : List Char}
    (h : Reads (laterEntries bracket step state : Reader σ) s last t) :
    ∃ spans, Spans bracket s spans t ∧ Chain step state spans last := by
  obtain ⟨ht, h⟩ := reads_iff.mp h
  fun_induction laterEntries bracket step state s generalizing last t with
  | case2 state s u hu hclose =>
      cases h
      exact ⟨[], .close (dropWhile_of_afterBlanks hclose), .nil _⟩
  | case7 state s u c v hv hbegins hclose next w hw hstep last' rest hrest hu hcomma hne ih =>
      cases h
      obtain ⟨spans, hspans, hchain⟩ :=
        ih (reads_iff.mpr ⟨rest.property, hrest⟩) rest.property hrest
      refine ⟨(c :: v, w) :: spans, ?_, .cons (reads_iff.mpr ⟨hw, hstep⟩) hchain⟩
      exact .more (dropWhile_of_afterBlanks hcomma) (dropWhile_of_afterBlanks hbegins) hclose hspans
  | _ => cases h

theorem laterEntries_of_spans {spans : List (List Char × List Char)} {s t : List Char}
    (hspans : Spans bracket s spans t) {state last : σ} (hchain : Chain step state spans last) :
    Reads (laterEntries bracket step state : Reader σ) s last t := by
  induction hspans generalizing state with
  | close closed =>
      cases hchain
      obtain ⟨hu, heq⟩ := afterBlanks_eq closed
      unfold Reads run
      rw [laterEntries]
      simp only [heq, if_pos]
      rfl
  | @more s u v w t c spans comma begins notClose rest ih =>
      cases hchain with
      | cons first rest =>
          obtain ⟨hw, hstep⟩ := reads_iff.mp first
          obtain ⟨ht, hrest⟩ := reads_iff.mp (ih rest)
          obtain ⟨hu, hcomma⟩ := afterBlanks_eq comma
          obtain ⟨hv, hbegins⟩ := afterBlanks_eq begins
          have hne : ',' ≠ bracket.close := by cases bracket <;> decide
          unfold Reads run
          rw [laterEntries]
          simp only [hcomma, if_neg hne, if_pos, hbegins, if_neg notClose, hstep, hrest]
          rfl

/-- **A bracket is read exactly if its entries can be read span by span.** -/
theorem reads_entries {state last : σ} {s t : List Char} :
    (entries bracket step state).Reads s last t
      ↔ ∃ spans, Block bracket s spans t ∧ Chain step state spans last := by
  refine ⟨fun h => ?_, ?_⟩
  · obtain ⟨ht, h⟩ := reads_iff.mp h
    unfold entries at h
    split at h
    · cases h
    · rename_i c u hu hbegins
      split at h
      · rename_i hclose
        cases h
        exact ⟨[], .empty (hclose ▸ dropWhile_of_afterBlanks hbegins), .nil _⟩
      · rename_i hclose
        split at h
        · cases h
        · rename_i next w hw hstep
          split at h
          · cases h
          · rename_i last' rest hrest
            cases h
            obtain ⟨spans, hspans, hchain⟩ :=
              spans_of_laterEntries (reads_iff.mpr ⟨rest.property, hrest⟩)
            exact ⟨_, .first (dropWhile_of_afterBlanks hbegins) hclose hspans,
              .cons (reads_iff.mpr ⟨hw, hstep⟩) hchain⟩
  · rintro ⟨spans, hblock, hchain⟩
    cases hblock with
    | empty closed =>
        cases hchain
        obtain ⟨hu, heq⟩ := afterBlanks_eq closed
        unfold Reads run entries
        simp only [heq, if_pos]
        rfl
    | first begins notClose rest =>
        cases hchain with
        | cons first later =>
            obtain ⟨hw, hstep⟩ := reads_iff.mp first
            obtain ⟨ht, hrest⟩ := reads_iff.mp (laterEntries_of_spans rest later)
            obtain ⟨hv, hbegins⟩ := afterBlanks_eq begins
            unfold Reads run entries
            simp only [hbegins, if_neg notClose, hstep, hrest]
            rfl

/-- Spans begin where the text says.  So if every entry is read to the end of its span, there are
no other spans. -/
theorem Spans.unique {s t : List Char} {spans : List (List Char × List Char)}
    (h : Spans bracket s spans t) : ∀ {others : List (List Char × List Char)} {u : List Char}
    {state last : σ}, Spans bracket s others u → Chain step state others last →
      (∀ span ∈ spans, ∀ state next u, (step state).Reads span.1 next u → span.2 = u) →
      spans = others ∧ t = u := by
  have hcomma : ',' ≠ bracket.close := by cases bracket <;> decide
  induction h with
  | close closed =>
      intro others u state last hothers _ _
      cases hothers with
      | close closed' =>
          have heq := closed.symm.trans closed'
          exact ⟨rfl, (List.cons.inj heq).2⟩
      | more comma' _ _ _ =>
          have heq := closed.symm.trans comma'
          exact absurd (List.cons.inj heq).1.symm hcomma
  | more comma begins _ _ ih =>
      intro others u state last hothers hchain hends
      cases hothers with
      | close closed' =>
          have heq := comma.symm.trans closed'
          exact absurd (List.cons.inj heq).1 hcomma
      | more comma' begins' _ rest' =>
          cases (List.cons.inj (comma.symm.trans comma')).2
          cases begins.symm.trans begins'
          cases hchain with
          | cons first later =>
              cases hends _ List.mem_cons_self _ _ _ first
              obtain ⟨rfl, rfl⟩ :=
                ih rest' later fun span hspan => hends span (List.mem_cons_of_mem _ hspan)
              exact ⟨rfl, rfl⟩

theorem Block.unique {s t : List Char} {spans : List (List Char × List Char)}
    (h : Block bracket s spans t) {others : List (List Char × List Char)} {u : List Char}
    {state last : σ} (hothers : Block bracket s others u) (hchain : Chain step state others last)
    (hends : ∀ span ∈ spans, ∀ state next u, (step state).Reads span.1 next u → span.2 = u) :
    spans = others ∧ t = u := by
  cases h with
  | empty closed =>
      cases hothers with
      | empty closed' =>
          have heq := closed.symm.trans closed'
          exact ⟨rfl, (List.cons.inj heq).2⟩
      | first begins' notClose' _ =>
          have heq := closed.symm.trans begins'
          exact absurd (List.cons.inj heq).1.symm notClose'
  | first begins notClose rest =>
      cases hothers with
      | empty closed' =>
          have heq := begins.symm.trans closed'
          exact absurd (List.cons.inj heq).1 notClose
      | first begins' _ rest' =>
          cases begins.symm.trans begins'
          cases hchain with
          | cons first later =>
              cases hends _ List.mem_cons_self _ _ _ first
              obtain ⟨rfl, rfl⟩ :=
                rest.unique rest' later fun span hspan => hends span (List.mem_cons_of_mem _ hspan)
              exact ⟨rfl, rfl⟩

/-- A bracket whose spans are known is read span by span, and to its end. -/
theorem Block.reads_entries {s t u : List Char} {spans : List (List Char × List Char)}
    (h : Block bracket s spans t)
    (hends : ∀ span ∈ spans, ∀ state next u, (step state).Reads span.1 next u → span.2 = u)
    {state last : σ} :
    (entries bracket step state).Reads s last u ↔ Chain step state spans last ∧ t = u := by
  rw [Reader.reads_entries]
  refine ⟨?_, ?_⟩
  · rintro ⟨others, hothers, hchain⟩
    obtain ⟨rfl, rfl⟩ := h.unique hothers hchain hends
    exact ⟨hchain, rfl⟩
  · rintro ⟨hchain, rfl⟩
    exact ⟨spans, h, hchain⟩

/-! ### Collected entries -/

section Collect

variable {collect : List α → Reader (List α)} {Item : List Char → α → List Char → Prop}
  (hcollect : ∀ {before next : List α} {s t : List Char},
    (collect before).Reads s next t ↔ ∃ item, Item s item t ∧ item :: before = next)

include hcollect

theorem chain_collect : ∀ {spans : List (List Char × List Char)} {before found : List α},
    Chain collect before spans found
      ↔ ∃ items, List.Forall₂ (fun span item => Item span.1 item span.2) spans items
        ∧ items.reverse ++ before = found := by
  intro spans
  induction spans with
  | nil =>
      intro before found
      refine ⟨?_, ?_⟩
      · intro h
        cases h
        exact ⟨[], .nil, rfl⟩
      · rintro ⟨items, hitems, rfl⟩
        cases hitems
        exact .nil _
  | cons span rest ih =>
      intro before found
      obtain ⟨s, t⟩ := span
      refine ⟨?_, ?_⟩
      · intro h
        cases h with
        | cons first later =>
            obtain ⟨item, hitem, rfl⟩ := hcollect.mp first
            obtain ⟨items, hitems, rfl⟩ := ih.mp later
            exact ⟨item :: items, .cons hitem hitems, by simp⟩
      · rintro ⟨items, hitems, rfl⟩
        cases hitems with
        | @cons _ item _ items hitem hitems =>
            have hlater : Chain collect (item :: before) rest ((item :: items).reverse ++ before) :=
              ih.mpr ⟨items, hitems, by simp⟩
            exact .cons (hcollect.mpr ⟨item, hitem, rfl⟩) hlater

/-- **Entries that are put in front of one another are the items that stand in the spans.** -/
theorem reads_collected {wrap : List α → β} {s t : List Char} {b : β} :
    Reads (do
      let found ← entries bracket collect []
      pure (wrap found.reverse)) s b t
      ↔ ∃ spans items, Block bracket s spans t
        ∧ List.Forall₂ (fun span item => Item span.1 item span.2) spans items ∧ wrap items = b := by
  simp only [reads_bind, reads_entries, chain_collect hcollect, reads_pure]
  refine ⟨?_, ?_⟩
  · rintro ⟨_, _, ⟨spans, hblock, items, hitems, rfl⟩, rfl, rfl⟩
    exact ⟨spans, items, hblock, hitems, by simp⟩
  · rintro ⟨spans, items, hblock, hitems, rfl⟩
    exact ⟨_, t, ⟨spans, hblock, items, hitems, rfl⟩, by simp⟩

/-- Items in spans that are known are collected. -/
theorem Block.reads_collected {wrap : List α → β} {s t u : List Char} {b : β}
    {spans : List (List Char × List Char)} (h : Block bracket s spans t)
    (hends : ∀ span ∈ spans, ∀ item u, Item span.1 item u → span.2 = u) :
    Reads (do
      let found ← entries bracket collect []
      pure (wrap found.reverse)) s b u
      ↔ (∃ items, List.Forall₂ (fun span item => Item span.1 item span.2) spans items
        ∧ wrap items = b) ∧ t = u := by
  have hsteps : ∀ span ∈ spans, ∀ before next u,
      (collect before).Reads span.1 next u → span.2 = u := by
    intro span hspan before next u hread
    obtain ⟨item, hitem, -⟩ := hcollect.mp hread
    exact hends span hspan item u hitem
  simp only [reads_bind, h.reads_entries hsteps, chain_collect hcollect, reads_pure]
  refine ⟨?_, ?_⟩
  · rintro ⟨_, _, ⟨⟨items, hitems, rfl⟩, rfl⟩, rfl, rfl⟩
    exact ⟨⟨items, hitems, by simp⟩, rfl⟩
  · rintro ⟨⟨items, hitems, rfl⟩, rfl⟩
    exact ⟨_, t, ⟨⟨items, hitems, rfl⟩, rfl⟩, by simp⟩

end Collect

theorem reads_item {r : Reader α} {before next : List α} {s t : List Char} :
    Reads (do return (← r) :: before) s next t
      ↔ ∃ item, r.Reads s item t ∧ item :: before = next := by
  simp only [reads_bind, reads_pure]
  refine ⟨?_, ?_⟩
  · rintro ⟨item, _, hitem, rfl, rfl⟩
    exact ⟨item, hitem, rfl⟩
  · rintro ⟨item, hitem, rfl⟩
    exact ⟨item, t, hitem, rfl, rfl⟩

/-! ### Values -/

/-- A key stands between two texts, and what is read behind its colon. -/
def Member (r : Reader α) (s : List Char) (member : String × α) (t : List Char) : Prop :=
  ∃ u, (key fun _ => .ok ()).Reads s member.1 u ∧ r.Reads u member.2 t

/-- What of a value stands behind its beginning: nothing more of a scalar, and the entries of an
array or an object, for which one more bracket has to be allowed. -/
def Inside (limit : Nat) : Json → List Char → List Char → Prop
  | .array items, u, t => ∃ inner spans, limit = inner + 1 ∧ Block .square u.tail spans t
    ∧ List.Forall₂ (fun span item => (value inner).Reads span.1 item span.2) spans items
  | .object members, u, t => ∃ inner spans, limit = inner + 1 ∧ Block .curly u.tail spans t
    ∧ List.Forall₂ (fun span member => Member (value inner) span.1 member span.2) spans members
  | .null, u, t | .boolean _, u, t | .number _, u, t | .string _, u, t => u = t

theorem reads_member {r : Reader α} {before next : List (String × α)} {s t : List Char} :
    Reads (do
      let name ← key fun _ => .ok ()
      return (name, ← r) :: before) s next t
      ↔ ∃ member, Member r s member t ∧ member :: before = next := by
  simp only [reads_bind, reads_pure]
  refine ⟨?_, ?_⟩
  · rintro ⟨name, u, hname, a, _, ha, rfl, rfl⟩
    exact ⟨(name, a), ⟨u, hname, ha⟩, rfl⟩
  · rintro ⟨⟨name, a⟩, ⟨u, hname, ha⟩, rfl⟩
    exact ⟨name, u, hname, a, t, ha, rfl, rfl⟩

/-- **A value is read exactly if its beginning is, and then what is inside.** -/
theorem reads_value {limit : Nat} {s t : List Char} {v : Json} :
    (value limit).Reads s v t ↔ ∃ u, glimpse.Reads s v.glimpse u ∧ Inside limit v u t := by
  unfold value
  rw [reads_bind]
  refine ⟨?_, ?_⟩
  · rintro ⟨g, u, hg, h⟩
    cases g with
    | sequence =>
        cases limit with
        | zero => exact absurd h not_reads_defect
        | succ inner =>
            obtain ⟨spans, items, hblock, hitems, rfl⟩ :=
              (reads_collected reads_item).mp (reads_next_bind.mp h)
            exact ⟨u, hg, inner, spans, rfl, hblock, hitems⟩
    | map =>
        cases limit with
        | zero => exact absurd h not_reads_defect
        | succ inner =>
            obtain ⟨spans, members, hblock, hmembers, rfl⟩ :=
              (reads_collected reads_member).mp (reads_next_bind.mp h)
            exact ⟨u, hg, inner, spans, rfl, hblock, hmembers⟩
    | _ =>
        obtain ⟨rfl, rfl⟩ := reads_pure.mp h
        exact ⟨u, hg, rfl⟩
  · rintro ⟨u, hg, h⟩
    refine ⟨v.glimpse, u, hg, ?_⟩
    cases v with
    | array items =>
        obtain ⟨inner, spans, rfl, hblock, hitems⟩ := h
        refine reads_next_bind.mpr ((reads_collected reads_item).mpr ?_)
        exact ⟨spans, items, hblock, hitems, rfl⟩
    | object members =>
        obtain ⟨inner, spans, rfl, hblock, hmembers⟩ := h
        refine reads_next_bind.mpr ((reads_collected reads_member).mpr ?_)
        exact ⟨spans, members, hblock, hmembers, rfl⟩
    | _ => exact reads_pure.mpr ⟨rfl, h⟩

theorem reads_value_dropWhile {limit : Nat} {s t : List Char} {v : Json} :
    (value limit).Reads (s.dropWhile isBlank) v t ↔ (value limit).Reads s v t := by
  simp only [reads_value, reads_glimpse_dropWhile]

theorem value_begins (limit : Nat) (bracket : Bracket) : ∀ s v t, (value limit).Reads s v t →
    ∃ c u, s.dropWhile isBlank = c :: u ∧ c ≠ bracket.close ∧ (value limit).Reads (c :: u) v t := by
  intro s v t h
  obtain ⟨_, hglimpse, -⟩ := reads_value.mp h
  obtain ⟨c, u, hs, hclose⟩ := exists_head_of_glimpse hglimpse bracket
  exact ⟨c, u, hs, hclose, hs ▸ reads_value_dropWhile.mpr h⟩

theorem member_begins (limit : Nat) : ∀ s member t, Member (value limit) s member t →
    ∃ c u, s.dropWhile isBlank = c :: u ∧ c ≠ Bracket.curly.close
      ∧ Member (value limit) (c :: u) member t := by
  rintro s member t ⟨v, hkey, hvalue⟩
  obtain ⟨u, -, hs, -⟩ := reads_key.mp hkey
  exact ⟨'"', u, hs, by decide, v, hs ▸ reads_key_dropWhile.mpr hkey, hvalue⟩

end Testbed.Json.Reader

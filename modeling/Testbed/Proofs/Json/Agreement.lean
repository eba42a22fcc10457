/-
Texts and values.

There are two ways to read what a text says: as a value first, from which a codec then takes
what it wants, or with the codec at once.  They agree if the codec takes from every text of a
value what it takes from the value, and no more and no less of the text than the value has.
Codecs that are put together from others agree if these do, because the entries of a bracket
stand in the same spans whichever way they are read.  What is passed over in a text ends where a
value would, so a record agrees whatever else there is in it.
-/
import Testbed.Json.Record
import Testbed.Proofs.Json.Skipping
import Testbed.Proofs.Outcome

namespace Testbed.Json

open Reader Outcome

namespace Codec

variable {α β : Type}

/-- A codec takes from every text of a value what it takes from the value. -/
def Agrees (c : Codec α) (v : Json) : Prop :=
  ∀ (limit : Nat) (s t : List Char), (Reader.value limit).Reads s v t →
    ∀ (a : α) (u : List Char), (c.read limit).Reads s a u ↔ c.ofJson v = .ok a ∧ t = u

theorem Agrees.map {c : Codec α} {v : Json} (h : c.Agrees v) (f : α → β) : (c.map f).Agrees v := by
  intro limit s t hv b u
  show Reads (do return f (← c.read limit)) s b u ↔ (c.ofJson v).map f = .ok b ∧ t = u
  simp only [reads_bind, reads_pure, h _ _ _ hv, map_eq_ok]
  refine ⟨?_, ?_⟩
  · rintro ⟨a, _, ⟨ha, rfl⟩, rfl, rfl⟩
    exact ⟨⟨a, ha, rfl⟩, rfl⟩
  · rintro ⟨⟨a, ha, rfl⟩, rfl⟩
    exact ⟨a, t, ⟨ha, rfl⟩, rfl, rfl⟩

/-- What is decided from the beginning of a value has to refuse brackets, of which the beginning is
not the whole. -/
theorem agrees_ofGlimpse {decide : Glimpse → Except Fault α}
    (hsequence : ∀ a, decide .sequence ≠ .ok a) (hmap : ∀ a, decide .map ≠ .ok a) (v : Json) :
    (ofGlimpse decide).Agrees v := by
  intro limit s t hv a u
  obtain ⟨w, hglimpse, hinside⟩ := reads_value.mp hv
  show Reads (do ofExcept (decide (← Reader.glimpse))) s a u ↔ decide v.glimpse = .ok a ∧ t = u
  rw [hglimpse.bind_iff, reads_ofExcept]
  cases v with
  | array items => exact iff_of_false (fun h => hsequence a h.1) fun h => hsequence a h.1
  | object members => exact iff_of_false (fun h => hmap a h.1) fun h => hmap a h.1
  | _ =>
      cases hinside
      exact Iff.rfl

theorem agrees_string (v : Json) : string.Agrees v := agrees_ofGlimpse nofun nofun v

theorem agrees_index (v : Json) : index.Agrees v := agrees_ofGlimpse nofun nofun v

theorem agrees_number (v : Json) : number.Agrees v := agrees_ofGlimpse nofun nofun v

theorem agrees_raw (v : Json) : raw.Agrees v := by
  intro limit s t hv w u
  show (Reader.value limit).Reads s w u ↔ (.ok v : Except Fault Json) = .ok w ∧ t = u
  rw [Except.ok.injEq]
  refine ⟨hv.unique, ?_⟩
  rintro ⟨rfl, rfl⟩
  exact hv

theorem agrees_any (v : Json) : any.Agrees v := (agrees_raw v).map collapse

/-! ### Brackets -/

theorem reads_bracketed {inner : Nat} {inside : Nat → Reader α} {s : List Char} {a : α}
    {t : List Char} :
    (bracketed (inner + 1) inside).Reads s a t ↔ (inside inner).Reads s.tail a t :=
  reads_next_bind

/-- Spans that are read as values are read as what a codec takes from these. -/
theorem forall₂_reads {c : Codec α} {limit : Nat} {spans : List (List Char × List Char)}
    {items : List Json}
    (hitems : List.Forall₂ (fun span v => (Reader.value limit).Reads span.1 v span.2) spans items)
    (h : ∀ v ∈ items, c.Agrees v) : ∀ {as : List α},
    List.Forall₂ (fun span a => (c.read limit).Reads span.1 a span.2) spans as
      ↔ List.Forall₂ (fun v a => c.ofJson v = .ok a) items as := by
  induction hitems with
  | nil =>
      intro as
      rw [List.forall₂_nil_left_iff, List.forall₂_nil_left_iff]
  | cons hv _ ih =>
      intro as
      obtain ⟨hfirst, hrest⟩ := List.forall_mem_cons.mp h
      rw [List.forall₂_cons_left_iff, List.forall₂_cons_left_iff]
      simp only [hfirst _ _ _ hv, ih hrest, and_true]

theorem agrees_list {c : Codec α} {v : Json}
    (h : ∀ items, v = .array items → ∀ w ∈ items, c.Agrees w) : c.list.Agrees v := by
  intro limit s t hv as u
  obtain ⟨w, hglimpse, hinside⟩ := reads_value.mp hv
  unfold list
  dsimp only
  rw [hglimpse.bind_iff]
  cases v with
  | array items =>
      obtain ⟨inner, spans, rfl, hblock, hitems⟩ := hinside
      have hagrees := h items rfl
      have hends : ∀ span ∈ spans, ∀ a u, (c.read inner).Reads span.1 a u → span.2 = u := by
        intro span hspan a u ha
        obtain ⟨item, hmem, hitem⟩ := exists_of_mem_forall₂ hitems span hspan
        exact ((hagrees item hmem _ _ _ hitem a u).mp ha).2
      have hcollected : Reads (do
          let found ← entries .square (fun found => do return (← c.read inner) :: found) []
          pure (id found.reverse)) w.tail as u ↔ _ := hblock.reads_collected reads_item hends
      refine (reads_bracketed.trans hcollected).trans (and_congr_left fun _ => ?_)
      refine ⟨?_, ?_⟩
      · rintro ⟨_, has, rfl⟩
        exact mapM_eq_ok.mpr ((forall₂_reads hitems hagrees).mp has)
      · intro has
        exact ⟨as, (forall₂_reads hitems hagrees).mpr (mapM_eq_ok.mp has), rfl⟩
  | _ =>
      refine iff_of_false not_reads_fail ?_
      rintro ⟨has, -⟩
      cases has

theorem Agrees.reads_member {c : Codec α} {inner : Nat} {s t : List Char} {member : String × Json}
    (h : c.Agrees member.2) (hmember : Member (Reader.value inner) s member t)
    {found : String × α} {u : List Char} : Member (c.read inner) s found u
      ↔ (member.1 = found.1 ∧ c.ofJson member.2 = .ok found.2) ∧ t = u := by
  obtain ⟨w, hkey, hv⟩ := hmember
  refine ⟨?_, ?_⟩
  · rintro ⟨w', hkey', hfound⟩
    obtain ⟨hname, rfl⟩ := hkey.unique hkey'
    obtain ⟨ha, rfl⟩ := (h _ _ _ hv _ _).mp hfound
    exact ⟨⟨hname, ha⟩, rfl⟩
  · rintro ⟨⟨hname, ha⟩, rfl⟩
    exact ⟨w, hname ▸ hkey, (h _ _ _ hv _ _).mpr ⟨ha, rfl⟩⟩

/-- Members that are read as values are read as what these collapse to. -/
theorem forall₂_members {inner : Nat} {spans : List (List Char × List Char)} {ms : Members}
    (hms : List.Forall₂ (fun span member => Member (Reader.value inner) span.1 member span.2)
      spans ms) : ∀ {found : Members},
    List.Forall₂ (fun span member => Member (any.read inner) span.1 member span.2) spans found
      ↔ collapseMembers ms = found := by
  induction hms with
  | nil =>
      intro found
      rw [List.forall₂_nil_left_iff, collapseMembers]
      exact eq_comm
  | @cons span member spans ms hmember _ ih =>
      intro found
      obtain ⟨name, v⟩ := member
      rw [List.forall₂_cons_left_iff, collapseMembers]
      simp only [(agrees_any v).reads_member hmember, ih]
      refine ⟨?_, ?_⟩
      · rintro ⟨⟨_, _⟩, _, ⟨⟨rfl, hv⟩, -⟩, rfl, rfl⟩
        cases hv
        rfl
      · rintro rfl
        exact ⟨(name, v.collapse), _, ⟨⟨rfl, rfl⟩, trivial⟩, rfl, rfl⟩

theorem agrees_members (v : Json) : members.Agrees v := by
  intro limit s t hv found u
  obtain ⟨w, hglimpse, hinside⟩ := reads_value.mp hv
  unfold members
  dsimp only
  rw [hglimpse.bind_iff]
  cases v with
  | object ms =>
      obtain ⟨inner, spans, rfl, hblock, hms⟩ := hinside
      have hends : ∀ span ∈ spans, ∀ member u,
          Member (any.read inner) span.1 member u → span.2 = u := by
        intro span hspan member u hmember
        obtain ⟨written, -, hwritten⟩ := exists_of_mem_forall₂ hms span hspan
        exact (((agrees_any written.2).reads_member hwritten).mp hmember).2
      refine (reads_bracketed.trans (hblock.reads_collected reads_member hends)).trans
        (and_congr_left fun _ => ?_)
      refine ⟨?_, ?_⟩
      · rintro ⟨members, hmembers, rfl⟩
        rw [← (forall₂_members hms).mp hmembers]
      · intro h
        exact ⟨_, (forall₂_members hms).mpr rfl, Except.ok.inj h⟩
  | _ =>
      refine iff_of_false not_reads_fail ?_
      rintro ⟨h, -⟩
      cases h

end Codec

/-! ### Records -/

theorem reads_key_bind {β : Type} {check : String → Except Fault Unit} {s t u : List Char}
    {name : String} (hkey : (key fun _ => .ok ()).Reads s name u) {next : String → Reader β}
    {b : β} : (key check >>= next).Reads s b t ↔ check name = .ok () ∧ (next name).Reads u b t := by
  rw [reads_bind]
  refine ⟨?_, ?_⟩
  · rintro ⟨name', u', hkey', h⟩
    obtain ⟨hkey', hcheck⟩ := reads_key_check.mp hkey'
    obtain ⟨rfl, rfl⟩ := hkey.unique hkey'
    exact ⟨hcheck, h⟩
  · rintro ⟨hcheck, h⟩
    exact ⟨name, u, reads_key_check.mpr ⟨hkey, hcheck⟩, h⟩

namespace Record

variable {σ α : Type} {r : Record σ α}

/-- What is wanted under a key is read from the text of a value as from the value, and what is not
wanted is passed over. -/
theorem reads_wanted {inner : Nat} {s t : List Char} {v : Json} (hv : (value inner).Reads s v t)
    {wanted : Option (Codec (σ → σ))} {draft next : σ} {u : List Char} :
    (∀ c, wanted = some c → c.Agrees v) → (Reads (match wanted with
      | some codec => do return (← codec.read inner) draft
      | none => do
        skip
        return draft) s next u
      ↔ (match wanted with
        | some codec => do return (← codec.ofJson v) draft
        | none => return draft : Except Fault σ) = .ok next ∧ t = u) := by
  intro hagrees
  cases wanted with
  | some c =>
      simp only [reads_bind, reads_pure, hagrees c rfl _ _ _ hv, bind_eq_ok, pure_eq_ok]
      refine ⟨?_, ?_⟩
      · rintro ⟨fill, _, ⟨hfill, rfl⟩, rfl, rfl⟩
        exact ⟨⟨fill, hfill, rfl⟩, rfl⟩
      · rintro ⟨⟨fill, hfill, rfl⟩, rfl⟩
        exact ⟨fill, t, ⟨hfill, rfl⟩, rfl, rfl⟩
  | none =>
      simp only [reads_bind, reads_pure, reads_skip hv, pure_eq_ok]
      refine ⟨?_, ?_⟩
      · rintro ⟨_, _, rfl, rfl, rfl⟩
        exact ⟨rfl, rfl⟩
      · rintro ⟨rfl, rfl⟩
        exact ⟨(), t, rfl, rfl, rfl⟩

/-- A member is read as it is taken. -/
theorem reads_readMember {inner : Nat} {s t : List Char} {member : String × Json}
    (hmember : Member (value inner) s member t)
    (hagrees : ∀ c, r.codec? member.1 = some c → c.Agrees member.2) {draft next : σ}
    {u : List Char} : (r.readMember inner draft).Reads s next u
      ↔ r.takeMember draft member = .ok next ∧ t = u := by
  obtain ⟨w, hkey, hv⟩ := hmember
  unfold readMember takeMember
  rw [reads_key_bind hkey, bind_eq_ok, Unique.exists_iff, and_assoc]
  exact and_congr_right fun _ => reads_wanted hv hagrees

theorem chain_readMember {inner : Nat} {spans : List (List Char × List Char)} {ms : Members}
    (hms : List.Forall₂ (fun span member => Member (value inner) span.1 member span.2) spans ms)
    (hagrees : ∀ member ∈ ms, ∀ c, r.codec? member.1 = some c → c.Agrees member.2) :
    ∀ {draft last : σ}, Chain (r.readMember inner) draft spans last
      ↔ ms.foldlM r.takeMember draft = .ok last := by
  induction hms with
  | nil =>
      intro draft last
      rw [List.foldlM_nil, pure_eq_ok]
      refine ⟨?_, ?_⟩
      · intro hchain
        cases hchain
        rfl
      · rintro rfl
        exact .nil _
  | cons hmember _ ih =>
      intro draft last
      obtain ⟨hfirst, hrest⟩ := List.forall_mem_cons.mp hagrees
      rw [List.foldlM_cons, bind_eq_ok]
      refine ⟨?_, ?_⟩
      · intro hchain
        cases hchain with
        | cons first later =>
            exact ⟨_, ((reads_readMember hmember hfirst).mp first).1, (ih hrest).mp later⟩
      · rintro ⟨next, hnext, hlater⟩
        exact .cons ((reads_readMember hmember hfirst).mpr ⟨hnext, rfl⟩) ((ih hrest).mpr hlater)

/-- A record is read from the members of an object as it is taken from them. -/
theorem reads_members {inner : Nat} {s t : List Char} {spans : List (List Char × List Char)}
    {ms : Members} (hblock : Block .curly s spans t)
    (hms : List.Forall₂ (fun span member => Member (value inner) span.1 member span.2) spans ms)
    (hagrees : ∀ member ∈ ms, ∀ c, r.codec? member.1 = some c → c.Agrees member.2) {last : σ}
    {u : List Char} : (entries .curly (r.readMember inner) r.blank).Reads s last u
      ↔ ms.foldlM r.takeMember r.blank = .ok last ∧ t = u := by
  have hends : ∀ span ∈ spans, ∀ draft next u,
      (r.readMember inner draft).Reads span.1 next u → span.2 = u := by
    intro span hspan draft next u hread
    obtain ⟨member, hmem, hmember⟩ := exists_of_mem_forall₂ hms span hspan
    exact ((reads_readMember hmember (hagrees member hmem)).mp hread).2
  rw [hblock.reads_entries hends, chain_readMember hms hagrees]

/-! ### Records as arrays -/

/-- The items of an array stand in these spans, behind its opening or behind an item. -/
def ItemSpans (first : Bool) (s : List Char) (spans : List (List Char × List Char))
    (t : List Char) : Prop :=
  if first then Block .square s spans t else Spans .square s spans t

theorem ItemSpans.begins_nil {first : Bool} {s t : List Char} (h : ItemSpans first s [] t) :
    s.dropWhile isBlank = ']' :: t := by
  cases first with
  | true =>
      cases h with
      | empty closed => exact closed
  | false =>
      cases h with
      | close closed => exact closed

theorem itemSpans_close (first : Bool) (t : List Char) : ItemSpans first (']' :: t) [] t := by
  cases first with
  | true => exact .empty rfl
  | false => exact .close rfl

theorem reads_another_close {first : Bool} {s t : List Char} (h : s.dropWhile isBlank = ']' :: t) :
    (another first).Reads s false (']' :: t) := by
  unfold another
  rw [reads_peekPastBlanks_bind, h]
  exact reads_pure.mpr ⟨rfl, rfl⟩

theorem reads_another_item {first : Bool} {s t : List Char} {span : List Char × List Char}
    {spans : List (List Char × List Char)} (h : ItemSpans first s (span :: spans) t) :
    (another first).Reads s true span.1 ∧ ItemSpans false span.2 spans t := by
  cases first with
  | true =>
      cases h with
      | first begins notClose rest =>
          refine ⟨?_, rest⟩
          unfold another
          rw [reads_peekPastBlanks_bind, begins]
          split
          · rename_i hnone
            cases hnone
          · rename_i hclose
            exact absurd (Option.some.inj hclose) notClose
          · exact reads_pure.mpr ⟨rfl, rfl⟩
  | false =>
      cases h with
      | more comma begins notClose rest =>
          refine ⟨?_, rest⟩
          unfold another
          rw [reads_peekPastBlanks_bind, comma]
          show Reads (next >>= _) _ _ _
          rw [reads_next_bind, List.tail_cons, reads_peekPastBlanks_bind, begins]
          split
          · rename_i hnone
            cases hnone
          · rename_i hclose
            exact absurd (Option.some.inj hclose) notClose
          · exact reads_pure.mpr ⟨rfl, rfl⟩

theorem reads_closeItems {s t : List Char} (h : s.dropWhile isBlank = ']' :: t) :
    closeItems.Reads s () t := by
  unfold closeItems
  rw [reads_peekPastBlanks_bind, h]
  show Reads (next >>= _) _ _ _
  rw [reads_next_bind]
  exact reads_pure.mpr ⟨rfl, rfl⟩

/-- An array of which something is left is not closed. -/
theorem not_reads_closeItems {first : Bool} {s t u : List Char} {span : List Char × List Char}
    {spans : List (List Char × List Char)} (h : ItemSpans first s (span :: spans) t) :
    ¬ closeItems.Reads s () u := by
  have hbegins : ∃ c v, s.dropWhile isBlank = c :: v ∧ c ≠ ']' := by
    cases first with
    | true =>
        cases h with
        | first begins notClose _ => exact ⟨_, _, begins, notClose⟩
    | false =>
        cases h with
        | more comma _ _ _ => exact ⟨_, _, comma, by decide⟩
  obtain ⟨c, v, hc, hclose⟩ := hbegins
  intro hread
  unfold closeItems at hread
  rw [reads_peekPastBlanks_bind, hc] at hread
  split at hread
  · exact absurd hread not_reads_defect
  · rename_i heq
    exact hclose (Option.some.inj heq)
  · rw [reads_next_bind, reads_peekPastBlanks_bind] at hread
    split at hread
    · exact absurd hread not_reads_defect
    · exact absurd hread not_reads_defect
  · exact absurd hread not_reads_defect

theorem reads_readItems {inner : Nat} (hagrees : ∀ f ∈ r.fields, ∀ v, f.codec.Agrees v) :
    ∀ {fields : List (Field σ)} {taken : Nat} {draft last : σ} {s t u : List Char}
      {spans : List (List Char × List Char)} {items : List Json}, (∀ f ∈ fields, f ∈ r.fields) →
      ItemSpans (taken == 0) s spans t →
      List.Forall₂ (fun span item => (value inner).Reads span.1 item span.2) spans items →
      ((r.readItems inner fields taken draft).Reads s last u
        ↔ r.takeItems fields taken draft items = .ok (last, []) ∧ t = u) := by
  intro fields
  induction fields with
  | nil =>
      intro taken draft last s t u spans items _ hspans hitems
      unfold readItems takeItems
      rw [Except.ok.injEq, Prod.mk.injEq]
      cases hitems with
      | nil =>
          have hclose := reads_closeItems hspans.begins_nil
          rw [hclose.bind_iff, reads_pure]
          simp
      | cons _ _ =>
          refine iff_of_false (fun h => ?_) fun h => ?_
          · obtain ⟨⟨⟩, v, hclose, -⟩ := reads_bind.mp h
            exact not_reads_closeItems hspans hclose
          · exact List.cons_ne_nil _ _ h.1.2
  | cons f fields ih =>
      intro taken draft last s t u spans items hsub hspans hitems
      obtain ⟨hf, hrest⟩ := List.forall_mem_cons.mp hsub
      unfold readItems
      cases hitems with
      | nil =>
          rw [(reads_another_close hspans.begins_nil).bind_iff]
          unfold takeItems
          rw [if_neg (by decide)]
          by_cases hrequired : f.required = true
          · rw [if_pos hrequired, if_pos hrequired]
            simp
          · rw [if_neg hrequired, if_neg hrequired]
            exact ih hrest (itemSpans_close _ _) .nil
      | cons hitem hitems =>
          obtain ⟨hanother, hlater⟩ := reads_another_item hspans
          have hlater : ItemSpans (taken + 1 == 0) _ _ _ := hlater
          rw [hanother.bind_iff, takeItems, bind_eq_ok, if_pos rfl, reads_bind]
          simp only [hagrees f hf _ _ _ _ hitem]
          refine ⟨?_, ?_⟩
          · rintro ⟨fill, _, ⟨hfill, rfl⟩, h⟩
            obtain ⟨htaken, rfl⟩ := (ih hrest hlater hitems).mp h
            exact ⟨⟨fill, hfill, htaken⟩, rfl⟩
          · rintro ⟨⟨fill, hfill, h⟩, rfl⟩
            exact ⟨fill, _, ⟨hfill, rfl⟩, (ih hrest hlater hitems).mpr ⟨h, rfl⟩⟩

theorem ofItems_eq_ok {items : List Json} {a : α} : r.ofItems items = .ok a
    ↔ ∃ draft, r.takeItems r.fields 0 r.blank items = .ok (draft, []) ∧ r.finish draft = .ok a := by
  unfold ofItems
  rw [bind_eq_ok]
  refine ⟨?_, ?_⟩
  · rintro ⟨⟨draft, left⟩, htaken, h⟩
    cases left with
    | nil => exact ⟨draft, htaken, h⟩
    | cons _ _ => cases h
  · rintro ⟨draft, htaken, h⟩
    exact ⟨(draft, []), htaken, h⟩

/-- **A record is read from the text of a value as it is read from the value,** if what is wanted
of it is. -/
theorem agrees_codec (hfields : ∀ f ∈ r.fields, ∀ v, f.codec.Agrees v)
    (hother : ∀ other, r.other = some other → ∀ name v, (other name).Agrees v) (v : Json) :
    r.codec.Agrees v := by
  have hwanted : ∀ key c, r.codec? key = some c → ∀ v, c.Agrees v := by
    intro key c hc v
    unfold codec? at hc
    split at hc
    · rename_i f hf
      cases hc
      exact hfields f (List.mem_of_find?_eq_some hf) v
    · obtain ⟨other, hr, rfl⟩ := Option.map_eq_some_iff.mp hc
      exact hother other hr key v
  intro limit s t hv a u
  obtain ⟨w, hglimpse, hinside⟩ := reads_value.mp hv
  show (r.read limit).Reads s a u ↔ r.ofJson v = .ok a ∧ t = u
  unfold Record.read Record.ofJson
  rw [hglimpse.bind_iff]
  cases v with
  | object ms =>
      obtain ⟨inner, spans, rfl, hblock, hms⟩ := hinside
      dsimp only [Json.glimpse]
      unfold ofMembers
      simp only [reads_bind, Codec.reads_bracketed, bind_eq_ok, reads_ofExcept,
        reads_members hblock hms fun member _ c hc => hwanted _ c hc member.2]
      refine ⟨?_, ?_⟩
      · rintro ⟨draft, _, ⟨hdraft, rfl⟩, hfinish, rfl⟩
        exact ⟨⟨draft, hdraft, hfinish⟩, rfl⟩
      · rintro ⟨⟨draft, hdraft, hfinish⟩, rfl⟩
        exact ⟨draft, t, ⟨hdraft, rfl⟩, hfinish, rfl⟩
  | array items =>
      obtain ⟨inner, spans, rfl, hblock, hitems⟩ := hinside
      dsimp only [Json.glimpse]
      split
      · have hspans : ItemSpans (0 == 0) w.tail spans t := hblock
        simp only [reads_bind, Codec.reads_bracketed, ofItems_eq_ok, reads_ofExcept,
          reads_readItems hfields (fun _ hf => hf) hspans hitems]
        refine ⟨?_, ?_⟩
        · rintro ⟨draft, _, ⟨hdraft, rfl⟩, hfinish, rfl⟩
          exact ⟨⟨draft, hdraft, hfinish⟩, rfl⟩
        · rintro ⟨⟨draft, hdraft, hfinish⟩, rfl⟩
          exact ⟨draft, t, ⟨hdraft, rfl⟩, hfinish, rfl⟩
      · simp
  | _ => 
      dsimp only [Json.glimpse]
      simp

end Record

end Testbed.Json

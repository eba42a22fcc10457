/-
Members looked up by their keys.

A record takes members into a draft, one after the other.  Each field fills a place of the draft,
and nothing but this field touches the place.  So what stands there in the end is what was found
under the key of the field, wherever that was written: a record can be told from what stands under
its keys, and nobody has to follow the draft.  That a key is found twice is the one thing that the
draft is needed for, and then there is no record.

The array of the fields of a record says the same as the object of these fields.
-/
import Testbed.Proofs.Json.Record
import Mathlib.Data.List.Induction

namespace Testbed.Json

open Outcome

/-- The members that a value spells out: an object its own, an array its items under the names of
the first fields. -/
inductive Spells (names : List String) : Json → Members → Prop
  | object (members : Members) : Spells names (.object members) members
  | array {items : List Json} (fits : items.length ≤ names.length) :
      Spells names (.array items) (names.zip items)

/-- What a value spells out, if it is an object or an array. -/
def spelled (names : List String) : Json → Members
  | .object members => members
  | .array items => names.zip items
  | _ => []

theorem Spells.eq_spelled {names : List String} {v : Json} {members : Members}
    (h : Spells names v members) : spelled names v = members := by
  cases h <;> rfl

/-- What a proper value spells out is proper. -/
theorem Spells.proper {ok : Number → Prop} {names : List String} {v : Json} {members : Members}
    (h : Spells names v members) (honce : names.Nodup) (hv : v.Proper ok) :
    (Json.object members).Proper ok := by
  cases h with
  | object => exact hv
  | array =>
      refine .object (Keyed.nodup_keys_zip honce _) fun entry hentry => ?_
      exact hv.items _ (List.of_mem_zip hentry).2

/-! ### What is found under a key -/

namespace Codec

variable {α β σ γ : Type}

/-- What a codec finds among the values under one key: nothing where there are none, and what it
reads where there is one. -/
inductive Finds (c : Codec α) : List Json → Option α → Prop
  | nothing : Finds c [] none
  | one {v : Json} {a : α} (read : c.ofJson v = .ok a) : Finds c [v] (some a)

theorem Finds.unique {c : Codec α} {vs : List Json} {found found' : Option α}
    (h : c.Finds vs found) (h' : c.Finds vs found') : found = found' := by
  cases h with
  | nothing =>
      cases h'
      rfl
  | one read =>
      cases h' with
      | one read' => rw [Except.ok.inj (read.symm.trans read')]

theorem Finds.map {c : Codec α} {vs : List Json} {found : Option α} (h : c.Finds vs found)
    (f : α → β) : (c.map f).Finds vs (found.map f) := by
  cases h with
  | nothing => exact .nothing
  | one read => exact .one (map_ofJson_eq_ok.mpr ⟨_, read, rfl⟩)

/-- With one value less there is still something that is found. -/
theorem Finds.init {c : Codec α} {vs ws : List Json} {found : Option α}
    (h : c.Finds (vs ++ ws) found) : ∃ found, c.Finds vs found := by
  cases vs with
  | nil => exact ⟨none, .nothing⟩
  | cons v vs =>
      rw [List.cons_append] at h
      generalize hrest : vs ++ ws = rest at h
      cases h with
      | one read =>
          rw [(List.append_eq_nil_iff.mp hrest).1]
          exact ⟨_, .one read⟩

/-- The value that comes last is the only one. -/
theorem Finds.last {c : Codec α} {vs : List Json} {v : Json} {found : Option α}
    (h : c.Finds (vs ++ [v]) found) : vs = [] ∧ ∃ a, c.ofJson v = .ok a := by
  generalize hall : vs ++ [v] = all at h
  cases h with
  | nothing => exact absurd hall (by simp)
  | one read =>
      obtain ⟨rfl, heq⟩ := List.append_eq_singleton_iff.mp hall |>.resolve_right (by simp)
      cases heq
      exact ⟨rfl, _, read⟩

/-- What is filled in leaves a part of the draft as it is. -/
def Spares (c : Codec (σ → σ)) (get : σ → γ) : Prop :=
  ∀ v fill, c.ofJson v = .ok fill → ∀ draft, get (fill draft) = get draft

theorem spares_map {c : Codec α} {set : α → σ → σ} {get : σ → γ}
    (h : ∀ a draft, get (set a draft) = get draft) : (c.map set).Spares get := by
  intro v fill hfill draft
  obtain ⟨a, -, rfl⟩ := map_ofJson_eq_ok.mp hfill
  exact h a draft

end Codec

namespace Record

variable {σ α β γ : Type} {r : Record σ α}

/-! ### Places of the draft -/

theorem field?_eq_some {key : String} {f : Field σ} (h : r.field? key = some f) :
    f ∈ r.fields ∧ f.name = key :=
  ⟨List.mem_of_find?_eq_some h, by simpa using List.find?_some h⟩

theorem codec?_of_field? {key : String} {f : Field σ} (h : r.field? key = some f) :
    r.codec? key = some f.codec := by
  unfold codec?
  rw [h]

theorem codec?_eq_some {key : String} {c : Codec (σ → σ)} (h : r.codec? key = some c) :
    (∃ f, r.field? key = some f ∧ f.codec = c)
      ∨ (r.field? key = none ∧ ∃ other, r.other = some other ∧ other key = c) := by
  unfold codec? at h
  split at h
  · rename_i f hf
    exact .inl ⟨f, hf, Option.some.inj h⟩
  · rename_i hf
    exact .inr ⟨hf, Option.map_eq_some_iff.mp h⟩

/-- A member can be taken if the field of its key is empty and the value is read. -/
theorem takeMember_eq_ok {draft next : σ} {key : String} {v : Json} :
    r.takeMember draft (key, v) = .ok next
      ↔ (∀ f, r.field? key = some f → f.filled draft = false)
        ∧ ((r.codec? key = none ∧ draft = next)
          ∨ ∃ c fill, r.codec? key = some c ∧ c.ofJson v = .ok fill ∧ fill draft = next) := by
  have hcheck : ∀ u, r.checkKey draft key = .ok u
      ↔ ∀ f, r.field? key = some f → f.filled draft = false := by
    intro u
    unfold checkKey
    cases r.field? key with
    | none => simp
    | some f => cases hf : f.filled draft <;> simp [hf]
  unfold takeMember
  rw [bind_eq_ok]
  simp only [hcheck, exists_and_left, exists_const]
  refine and_congr_right fun _ => ?_
  cases r.codec? key with
  | none => simp [pure_eq_ok]
  | some c =>
      dsimp only
      rw [bind_eq_ok]
      simp [pure_eq_ok]

/-- A place of the draft: it is empty at first, one field fills it, and nothing else touches it. -/
structure Place (r : Record σ α) (name : String) (c : Codec β) (get : σ → Option β) : Prop where
  blank : get r.blank = none
  field : ∃ required set, r.field? name = some (.of name required c get set)
    ∧ ∀ b draft, get (set b draft) = some b
  fields : ∀ f ∈ r.fields, f.name ≠ name → f.codec.Spares get
  other : ∀ other, r.other = some other → ∀ key, (other key).Spares get

namespace Place

variable {name : String} {c : Codec β} {get : σ → Option β}

theorem takeMember_other (h : r.Place name c get) {draft next : σ} {key : String} {v : Json}
    (hkey : key ≠ name) (hnext : r.takeMember draft (key, v) = .ok next) :
    get next = get draft := by
  obtain ⟨-, ⟨-, rfl⟩ | ⟨codec, fill, hcodec, hfill, rfl⟩⟩ := takeMember_eq_ok.mp hnext
  · rfl
  · rcases codec?_eq_some hcodec with ⟨f, hf, rfl⟩ | ⟨-, other, hother, rfl⟩
    · obtain ⟨hmem, hname⟩ := field?_eq_some hf
      exact h.fields f hmem (hname ▸ hkey) v fill hfill draft
    · exact h.other other hother key v fill hfill draft

theorem takeMember_self (h : r.Place name c get) {draft next : σ} {v : Json}
    (hnext : r.takeMember draft (name, v) = .ok next) :
    get draft = none ∧ ∃ b, c.ofJson v = .ok b ∧ get next = some b := by
  obtain ⟨required, set, hfield, hset⟩ := h.field
  obtain ⟨hempty, hnext⟩ := takeMember_eq_ok.mp hnext
  have hcodec : r.codec? name = some (c.map set) := codec?_of_field? hfield
  have hdraft : (get draft).isSome = false := hempty _ hfield
  refine ⟨by simpa using hdraft, ?_⟩
  rcases hnext with ⟨hnone, -⟩ | ⟨_, fill, hsome, hfill, rfl⟩
  · rw [hcodec] at hnone
    cases hnone
  · cases hcodec.symm.trans hsome
    obtain ⟨b, hb, rfl⟩ := Codec.map_ofJson_eq_ok.mp hfill
    exact ⟨b, hb, hset b draft⟩

theorem finds_from (h : r.Place name c get) : ∀ {members : Members} {draft filled : σ},
    r.Takes draft members filled →
      (Keyed.all name members = [] ∧ get filled = get draft)
        ∨ (get draft = none
          ∧ ∃ b, get filled = some b ∧ c.Finds (Keyed.all name members) (some b)) := by
  intro members
  induction members with
  | nil =>
      intro draft filled htakes
      cases pure_eq_ok.mp htakes
      exact .inl ⟨rfl, rfl⟩
  | cons entry rest ih =>
      intro draft filled htakes
      obtain ⟨key, v⟩ := entry
      unfold Takes at htakes
      rw [List.foldlM_cons] at htakes
      obtain ⟨next, hnext, hrest⟩ := bind_eq_ok.mp htakes
      by_cases hkey : key = name
      · subst hkey
        obtain ⟨hempty, b, hb, hplace⟩ := h.takeMember_self hnext
        rw [Keyed.all_cons_self]
        rcases ih hrest with ⟨hnone, hfilled⟩ | ⟨hnone, -⟩
        · rw [hnone]
          exact .inr ⟨hempty, b, hfilled.trans hplace, .one hb⟩
        · rw [hplace] at hnone
          cases hnone
      · rw [Keyed.all_cons_ne hkey, ← h.takeMember_other hkey hnext]
        exact ih hrest

/-- **What stands in a place is what is found under the key of its field.** -/
theorem finds (h : r.Place name c get) {members : Members} {filled : σ}
    (htakes : r.Takes r.blank members filled) :
    c.Finds (Keyed.all name members) (get filled) := by
  rcases h.finds_from htakes with ⟨hnone, hfilled⟩ | ⟨-, b, hfilled, hb⟩
  · rw [hnone, hfilled, h.blank]
    exact .nothing
  · rwa [hfilled]

/-- So what is required is there exactly if it is found. -/
theorem require_iff (h : r.Place name c get) {members : Members} {filled : σ}
    (htakes : r.Takes r.blank members filled) {key : String} {b : β} :
    Record.require key (get filled) = .ok b ↔ c.Finds (Keyed.all name members) (some b) := by
  rw [require_eq_ok]
  refine ⟨fun hb => hb ▸ h.finds htakes, (h.finds htakes).unique⟩

end Place

/-- What is not taken by a field, in a part of the draft that fields do not touch. -/
theorem Takes.rest {get : σ → γ} {step : γ → String × Json → γ}
    {other : String → Codec (σ → σ)} (hfields : ∀ f ∈ r.fields, f.codec.Spares get)
    (hother : r.other = some other)
    (hstep : ∀ key v fill, (other key).ofJson v = .ok fill →
      ∀ draft, get (fill draft) = step (get draft) (key, v)) :
    ∀ {members : Members} {draft filled : σ}, r.Takes draft members filled →
      get filled
        = (members.filter fun entry => (r.field? entry.1).isNone).foldl step (get draft) := by
  intro members
  induction members with
  | nil =>
      intro draft filled htakes
      cases pure_eq_ok.mp htakes
      rfl
  | cons entry rest ih =>
      intro draft filled htakes
      obtain ⟨key, v⟩ := entry
      unfold Takes at htakes
      rw [List.foldlM_cons] at htakes
      obtain ⟨next, hnext, hrest⟩ := bind_eq_ok.mp htakes
      obtain ⟨-, ⟨hcodec, -⟩ | ⟨codec, fill, hcodec, hfill, rfl⟩⟩ := takeMember_eq_ok.mp hnext
      · unfold codec? at hcodec
        rw [hother] at hcodec
        split at hcodec <;> cases hcodec
      · rw [ih hrest]
        rcases codec?_eq_some hcodec with ⟨f, hf, rfl⟩ | ⟨hf, _, hsome, rfl⟩
        · rw [List.filter_cons_of_neg (by simp [hf]),
            hfields f (field?_eq_some hf).1 v fill hfill draft]
        · cases hother.symm.trans hsome
          rw [List.filter_cons_of_pos (by simp [hf]), List.foldl_cons,
            hstep key v fill hfill draft]

/-! ### Records made of places -/

/-- Every field has a place of its own, what is under other keys is never refused, and no record
is made without what is required. -/
structure Placed (r : Record σ α) : Prop where
  once : (r.fields.map Field.name).Nodup
  place : ∀ f ∈ r.fields, ∃ (β : Type) (c : Codec β) (get : σ → Option β), r.Place f.name c get
  other : ∀ other, r.other = some other → ∀ key v, ∃ fill, (other key).ofJson v = .ok fill
  required : ∀ draft a, r.finish draft = .ok a →
    ∀ f ∈ r.fields, f.required = true → f.filled draft = true

namespace Placed

theorem field? (h : r.Placed) {f : Field σ} (hf : f ∈ r.fields) : r.field? f.name = some f := by
  unfold Record.field?
  refine List.find?_eq_some_iff_append.mpr ⟨by simp, ?_⟩
  obtain ⟨before, after, hfields⟩ := List.append_of_mem hf
  refine ⟨before, after, hfields, fun g hg => ?_⟩
  have honce := h.once
  rw [hfields, List.map_append, List.nodup_append] at honce
  have hne : g.name ≠ f.name :=
    honce.2.2 _ (List.mem_map_of_mem hg) _ (List.mem_map_of_mem List.mem_cons_self)
  simpa using hne

/-- A field is known by the place that it fills. -/
theorem exists_place (h : r.Placed) {f : Field σ} (hf : f ∈ r.fields) :
    ∃ (β : Type) (c : Codec β) (get : σ → Option β), r.Place f.name c get
      ∧ ∀ draft, f.filled draft = (get draft).isSome := by
  obtain ⟨β, c, get, hplace⟩ := h.place f hf
  obtain ⟨required, set, hfield, -⟩ := hplace.field
  refine ⟨β, c, get, hplace, fun draft => ?_⟩
  have heq := Option.some.inj ((h.field? hf).symm.trans hfield)
  rw [heq]
  rfl

/-- **Members are taken if under the key of every field there is nothing, or one value that is
read.** -/
theorem takes (h : r.Placed) {members : Members}
    (hfound : ∀ f ∈ r.fields, ∃ found, f.codec.Finds (Keyed.all f.name members) found) :
    ∃ filled, r.Takes r.blank members filled := by
  induction members using List.reverseRecOn with
  | nil => exact ⟨r.blank, .nil _⟩
  | append_singleton members entry ih =>
      obtain ⟨key, v⟩ := entry
      simp only [Keyed.all_append] at hfound
      obtain ⟨draft, hdraft⟩ := ih fun f hf => (hfound f hf).elim fun _ hfinds => hfinds.init
      suffices hnext : ∃ next, r.takeMember draft (key, v) = .ok next by
        obtain ⟨next, hnext⟩ := hnext
        exact ⟨next, hdraft.append (.cons hnext (.nil _))⟩
      cases hfield : r.field? key with
      | some f =>
          obtain ⟨hf, rfl⟩ := field?_eq_some hfield
          obtain ⟨found, hfinds⟩ := hfound f hf
          rw [Keyed.all_cons_self, Keyed.all_nil] at hfinds
          obtain ⟨hnone, fill, hfill⟩ := hfinds.last
          obtain ⟨β, c, get, hplace, hfilled⟩ := h.exists_place hf
          -- the key is new, so its place is still empty
          have hempty : get draft = none := by
            have hget := hplace.finds hdraft
            rw [hnone] at hget
            exact hget.unique .nothing
          exact ⟨_, takeMember_field hfield (by rw [hfilled, hempty]; rfl) hfill⟩
      | none =>
          cases hother : r.other with
          | none =>
              refine ⟨draft, takeMember_eq_ok.mpr ⟨by simp [hfield], .inl ⟨?_, rfl⟩⟩⟩
              unfold codec?
              rw [hfield, hother]
              rfl
          | some other =>
              obtain ⟨fill, hfill⟩ := h.other other hother key v
              exact ⟨_, takeMember_other hfield hother hfill⟩

end Placed

/-! ### Objects and arrays -/

/-- Fields that come one behind the other in the record, with their places still empty. -/
structure Unfilled (r : Record σ α) (fields : List (Field σ)) (draft : σ) : Prop where
  sublist : fields.Sublist r.fields
  empty : ∀ f ∈ fields, f.filled draft = false

namespace Unfilled

variable {f : Field σ} {fields : List (Field σ)} {draft : σ}

theorem head (h : r.Unfilled (f :: fields) draft) : f ∈ r.fields ∧ f.filled draft = false :=
  ⟨h.sublist.subset List.mem_cons_self, h.empty f List.mem_cons_self⟩

theorem tail (h : r.Unfilled (f :: fields) draft) : r.Unfilled fields draft :=
  ⟨(List.sublist_cons_self f fields).trans h.sublist,
    fun g hg => h.empty g (List.mem_cons_of_mem _ hg)⟩

/-- What the first field fills in is nothing to the others. -/
theorem next (h : r.Unfilled (f :: fields) draft) (hr : r.Placed) {v : Json} {fill : σ → σ}
    (hfill : f.codec.ofJson v = .ok fill) : r.Unfilled fields (fill draft) := by
  refine ⟨h.tail.sublist, fun g hg => ?_⟩
  have honce : ((f :: fields).map Field.name).Nodup := (h.sublist.map _).nodup hr.once
  have hne : f.name ≠ g.name := fun heq =>
    (List.nodup_cons.mp honce).1 (heq ▸ List.mem_map_of_mem hg)
  obtain ⟨β, c, get, hplace, hfilled⟩ := hr.exists_place (h.tail.sublist.subset hg)
  rw [hfilled, hplace.fields f h.head.1 hne v fill hfill draft, ← hfilled]
  exact h.tail.empty g hg

end Unfilled

namespace Placed

theorem takes_of_takeItems (h : r.Placed) : ∀ {fields : List (Field σ)} {taken : Nat}
    {draft filled : σ} {items : List Json}, r.Unfilled fields draft →
    r.takeItems fields taken draft items = .ok (filled, []) →
      items.length ≤ fields.length ∧ r.Takes draft ((fields.map Field.name).zip items) filled := by
  intro fields
  induction fields with
  | nil =>
      intro taken draft filled items _ hitems
      cases hitems
      exact ⟨Nat.le_refl _, .nil _⟩
  | cons f fields ih =>
      intro taken draft filled items hopen hitems
      cases items with
      | nil =>
          rw [Record.takeItems] at hitems
          split at hitems
          · cases hitems
          · have htakes := (ih hopen.tail hitems).2
            rw [List.zip_nil_right] at htakes ⊢
            exact ⟨Nat.zero_le _, htakes⟩
      | cons item items =>
          rw [Record.takeItems] at hitems
          obtain ⟨fill, hfill, hitems⟩ := bind_eq_ok.mp hitems
          obtain ⟨hlength, htakes⟩ := ih (hopen.next h hfill) hitems
          obtain ⟨hf, hempty⟩ := hopen.head
          exact ⟨Nat.succ_le_succ hlength,
            .cons (takeMember_field (h.field? hf) hempty hfill) htakes⟩

theorem takeItems_of_takes (h : r.Placed) : ∀ {fields : List (Field σ)} {taken : Nat}
    {draft filled : σ} {items : List Json} {a : α}, r.Unfilled fields draft →
    items.length ≤ fields.length → r.Takes draft ((fields.map Field.name).zip items) filled →
    r.finish filled = .ok a → r.takeItems fields taken draft items = .ok (filled, []) := by
  intro fields
  induction fields with
  | nil =>
      intro taken draft filled items a _ hlength htakes _
      cases List.length_eq_zero_iff.mp (Nat.le_zero.mp hlength)
      cases pure_eq_ok.mp htakes
      rfl
  | cons f fields ih =>
      intro taken draft filled items a hopen hlength htakes ha
      obtain ⟨hf, hempty⟩ := hopen.head
      cases items with
      | nil =>
          rw [List.zip_nil_right] at htakes
          have hfree : ¬ f.required = true := by
            intro hrequired
            cases pure_eq_ok.mp htakes
            exact Bool.noConfusion (hempty.symm.trans (h.required _ a ha f hf hrequired))
          rw [Record.takeItems, if_neg hfree]
          exact ih hopen.tail (Nat.zero_le _) (by rwa [List.zip_nil_right]) ha
      | cons item items =>
          unfold Takes at htakes
          rw [List.map_cons, List.zip_cons_cons, List.foldlM_cons] at htakes
          obtain ⟨next, hmember, htakes⟩ := bind_eq_ok.mp htakes
          have hcodec : r.codec? f.name = some f.codec := codec?_of_field? (h.field? hf)
          obtain ⟨-, ⟨hnone, -⟩ | ⟨c, fill, hsome, hfill, rfl⟩⟩ := takeMember_eq_ok.mp hmember
          · rw [hcodec] at hnone
            cases hnone
          · cases hcodec.symm.trans hsome
            rw [Record.takeItems]
            exact bind_eq_ok.mpr ⟨fill, hfill,
              ih (hopen.next h hfill) (Nat.le_of_succ_le_succ hlength) htakes ha⟩

theorem unfilled (h : r.Placed) : r.Unfilled r.fields r.blank := by
  refine ⟨List.Sublist.refl _, fun f hf => ?_⟩
  obtain ⟨β, c, get, hplace, hfilled⟩ := h.exists_place hf
  rw [hfilled, hplace.blank]
  rfl

/-- **A record that may be an array is read from the members that a value spells out.** -/
theorem ofJson_positional (h : r.Placed) (hpositional : r.positional = true) {v : Json} {a : α} :
    r.ofJson v = .ok a ↔ ∃ members filled, Spells (r.fields.map Field.name) v members
      ∧ r.Takes r.blank members filled ∧ r.finish filled = .ok a := by
  refine ⟨?_, ?_⟩
  · intro hv
    cases v with
    | object members =>
        obtain ⟨filled, htakes, ha⟩ := bind_eq_ok.mp hv
        exact ⟨members, filled, .object members, htakes, ha⟩
    | array items =>
        unfold Record.ofJson at hv
        dsimp only at hv
        rw [if_pos hpositional] at hv
        obtain ⟨⟨filled, left⟩, hitems, hv⟩ := bind_eq_ok.mp hv
        dsimp only at hv
        cases left with
        | cons => cases hv
        | nil =>
            obtain ⟨hlength, htakes⟩ := h.takes_of_takeItems h.unfilled hitems
            exact ⟨_, filled, .array (by rwa [List.length_map]), htakes, hv⟩
    | _ => cases hv
  · rintro ⟨members, filled, hspells, htakes, ha⟩
    cases hspells with
    | object => exact htakes.ofJson ha
    | @array items fits =>
        rw [List.length_map] at fits
        have hitems : r.takeItems r.fields 0 r.blank items = .ok (filled, []) :=
          h.takeItems_of_takes h.unfilled fits htakes ha
        unfold Record.ofJson
        dsimp only
        rw [if_pos hpositional]
        exact bind_eq_ok.mpr ⟨_, hitems, ha⟩

end Placed

/-- A record that may not be an array is read from the members of an object. -/
theorem ofJson_object (hpositional : r.positional = false) {v : Json} {a : α} :
    r.ofJson v = .ok a ↔ ∃ members filled, v = .object members
      ∧ r.Takes r.blank members filled ∧ r.finish filled = .ok a := by
  refine ⟨?_, ?_⟩
  · intro hv
    cases v with
    | object members =>
        obtain ⟨filled, htakes, ha⟩ := bind_eq_ok.mp hv
        exact ⟨members, filled, rfl, htakes, ha⟩
    | array items =>
        unfold Record.ofJson at hv
        dsimp only at hv
        rw [hpositional] at hv
        cases hv
    | _ => cases hv
  · rintro ⟨members, filled, rfl, htakes, ha⟩
    exact htakes.ofJson ha

end Record

end Testbed.Json

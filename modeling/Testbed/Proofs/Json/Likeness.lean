/-
Values that are read alike.

Two values may be written differently and still mean the same: the members of an object may stand
in another order, and a key that is repeated counts only once.  A `Likeness` is a relation between
values as they are written, together with relations between the values and the numbers that are
read from them.  What it asks for is what codecs look at: the shape of a value, the values under a
key, and a table with some keys left out.

Every codec reads like things from like values.  For a key that is repeated nothing is claimed,
because no field is read then.
-/
import Testbed.Proofs.Json.Fields
import Testbed.Proofs.Json.Equality

namespace Testbed.Json

open Outcome

/-- What is under one key of two objects: nothing in both, or one value in each, and these are
related.  Of a key that is repeated in the first object nothing is said. -/
structure AlikeUnder (V : Json → Json → Prop) (vs vs' : List Json) : Prop where
  nothing : vs = [] → vs' = []
  one : ∀ v, vs = [v] → ∃ v', vs' = [v'] ∧ V v v'

/-- The same for every key. -/
def AlikeMembers (V : Json → Json → Prop) (members members' : Members) : Prop :=
  ∀ key, AlikeUnder V (Keyed.all key members) (Keyed.all key members')

/-- Relations between values as they are written, and between the values and numbers read. -/
structure Likeness (V J : Json → Json → Prop) (N : Number → Number → Prop) : Prop where
  null : ∀ {v'}, V .null v' → v' = .null
  string : ∀ {s v'}, V (.string s) v' → v' = .string s
  number : ∀ {n v'}, V (.number n) v' → ∃ n', v' = .number n' ∧ N n n'
  integer : ∀ {k n'}, N (.integer k) n' ↔ n' = .integer k
  array : ∀ {items v'}, V (.array items) v' →
    ∃ items', v' = .array items' ∧ List.Forall₂ V items items'
  object : ∀ {members v'}, V (.object members) v' →
    ∃ members', v' = .object members' ∧ AlikeMembers V members members'
  keeping : ∀ {members members'}, V (.object members) (.object members') →
    ∀ p, V (.object (Keyed.keeping p members)) (.object (Keyed.keeping p members'))
  read : ∀ {v v'}, V v v' → J v.collapse v'.collapse
  empty : J (.object []) (.object [])

/-! ### Codecs -/

namespace Codec

variable {α β : Type} {V J : Json → Json → Prop} {N : Number → Number → Prop} {c : Codec α}
  {R : α → α → Prop}

/-- From what is like a value that is read, something like it is read. -/
def Carries (V : Json → Json → Prop) (c : Codec α) (R : α → α → Prop) : Prop :=
  ∀ ⦃v v' a⦄, V v v' → c.ofJson v = .ok a → ∃ a', c.ofJson v' = .ok a' ∧ R a a'

section Basic

variable (h : Likeness V J N)

include h

theorem carries_string : string.Carries V (· = ·) := by
  intro v v' s hv hs
  cases v with
  | string t =>
      rw [h.string hv]
      exact ⟨s, hs, rfl⟩
  | _ => cases hs

theorem carries_number : number.Carries V N := by
  intro v v' n hv hn
  cases v with
  | number m =>
      cases hn
      obtain ⟨n', rfl, hnumber⟩ := h.number hv
      exact ⟨n', rfl, hnumber⟩
  | _ => cases hn

theorem carries_number? : number?.Carries V (Option.Rel N) := by
  intro v v' n hv hn
  cases v with
  | null =>
      cases hn
      rw [h.null hv]
      exact ⟨none, rfl, .none⟩
  | number m =>
      cases hn
      obtain ⟨n', rfl, hnumber⟩ := h.number hv
      exact ⟨some n', rfl, .some hnumber⟩
  | _ => cases hn

theorem carries_index : index.Carries V (· = ·) := by
  intro v v' k hv hk
  cases v with
  | number n =>
      obtain ⟨n', rfl, hnumber⟩ := h.number hv
      cases n with
      | float x => cases hk
      | integer value =>
          rw [h.integer.mp hnumber]
          exact ⟨k, hk, rfl⟩
  | _ => cases hk

theorem carries_any : any.Carries V J := by
  intro v v' w hv hw
  cases hw
  exact ⟨_, rfl, h.read hv⟩

theorem carries_members :
    Codec.members.Carries V fun ms ms' => J (.object ms) (.object ms') := by
  intro v v' ms hv hms
  cases v with
  | object members =>
      cases hms
      obtain ⟨members', rfl, -⟩ := h.object hv
      exact ⟨_, rfl, h.read hv⟩
  | _ => cases hms

theorem Carries.list (hc : c.Carries V R) : c.list.Carries V (List.Forall₂ R) := by
  intro v v' as hv has
  obtain ⟨items, rfl, hread⟩ := list_ofJson_eq_ok.mp has
  obtain ⟨items', rfl, hitems⟩ := h.array hv
  suffices hread' : ∃ as', List.Forall₂ (fun item a => c.ofJson item = .ok a) items' as'
      ∧ List.Forall₂ R as as' by
    obtain ⟨as', hread', hlike⟩ := hread'
    exact ⟨as', list_ofJson_eq_ok.mpr ⟨items', rfl, hread'⟩, hlike⟩
  clear has hv
  induction hitems generalizing as with
  | nil =>
      cases hread
      exact ⟨[], .nil, .nil⟩
  | cons hitem _ ih =>
      cases hread with
      | cons hfirst hrest =>
          obtain ⟨a', ha', hlike⟩ := hc hitem hfirst
          obtain ⟨as', has', hlikes⟩ := ih hrest
          exact ⟨a' :: as', .cons ha' has', .cons hlike hlikes⟩

theorem carries_indices : index.list.Carries V (· = ·) := by
  have hlist := (carries_index h).list h
  rwa [List.forall₂_eq_eq_eq] at hlist

end Basic

/-- What is found under a key of one object is found under the key of the other. -/
theorem Carries.finds (hc : c.Carries V R) {vs vs' : List Json} (hvs : AlikeUnder V vs vs')
    {found : Option α} (hfound : c.Finds vs found) :
    ∃ found', c.Finds vs' found' ∧ Option.Rel R found found' := by
  cases hfound with
  | nothing =>
      rw [hvs.nothing rfl]
      exact ⟨none, .nothing, .none⟩
  | @one v a read =>
      obtain ⟨v', heq, hv⟩ := hvs.one v rfl
      obtain ⟨a', ha', hlike⟩ := hc hv read
      rw [heq]
      exact ⟨some a', .one ha', .some hlike⟩

theorem Carries.finds_some (hc : c.Carries V R) {vs vs' : List Json} (hvs : AlikeUnder V vs vs')
    {a : α} (ha : c.Finds vs (some a)) : ∃ a', c.Finds vs' (some a') ∧ R a a' := by
  obtain ⟨found', hfound', hlike⟩ := hc.finds hvs ha
  cases hlike with
  | some hlike => exact ⟨_, hfound', hlike⟩

theorem Carries.finds_eq (hc : c.Carries V (· = ·)) {vs vs' : List Json}
    (hvs : AlikeUnder V vs vs') {found : Option α} (hfound : c.Finds vs found) :
    c.Finds vs' found := by
  obtain ⟨found', hfound', hlike⟩ := hc.finds hvs hfound
  cases hlike with
  | none => exact hfound'
  | some heq => rwa [heq]

end Codec

variable {V J : Json → Json → Prop} {N : Number → Number → Prop}

theorem alikeUnder_of_forall₂ {vs vs' : List Json} (h : List.Forall₂ V vs vs') :
    AlikeUnder V vs vs' := by
  refine ⟨?_, ?_⟩
  · rintro rfl
    exact List.forall₂_nil_left_iff.mp h
  · rintro v rfl
    cases h with
    | cons hv hrest =>
        cases hrest
        exact ⟨_, rfl, hv⟩

theorem forall₂_all_zip {items items' : List Json} (h : List.Forall₂ V items items')
    (names : List String) (key : String) :
    List.Forall₂ V (Keyed.all key (names.zip items)) (Keyed.all key (names.zip items')) := by
  induction h generalizing names with
  | nil =>
      rw [List.zip_nil_right]
      exact .nil
  | @cons item item' _ _ hitem _ ih =>
      cases names with
      | nil => exact .nil
      | cons name names =>
          rw [List.zip_cons_cons, List.zip_cons_cons]
          by_cases hname : name = key
          · subst hname
            rw [Keyed.all_cons_self, Keyed.all_cons_self]
            exact .cons hitem (ih names)
          · rw [Keyed.all_cons_ne hname, Keyed.all_cons_ne hname]
            exact ih names

/-- Where no members are found, there are none. -/
theorem Likeness.getD_members (h : Likeness V J N) {found found' : Option Members}
    (hfound : Option.Rel (fun a b => J (.object a) (.object b)) found found') :
    J (.object (found.getD [])) (.object (found'.getD [])) := by
  cases hfound with
  | none => exact h.empty
  | some hlike => exact hlike

/-- **Like values spell out like members.** -/
theorem Likeness.spells (h : Likeness V J N) {names : List String} {v v' : Json}
    {members : Members} (hv : V v v') (hspells : Spells names v members) :
    ∃ members', Spells names v' members' ∧ AlikeMembers V members members' := by
  cases hspells with
  | object =>
      obtain ⟨members', rfl, hlike⟩ := h.object hv
      exact ⟨members', .object members', hlike⟩
  | array fits =>
      obtain ⟨items', rfl, hitems⟩ := h.array hv
      refine ⟨_, .array (hitems.length_eq ▸ fits), fun key => ?_⟩
      exact alikeUnder_of_forall₂ (forall₂_all_zip hitems names key)

/-! ### A value and what it means -/

theorem collapse_collapse (v : Json) : v.collapse.collapse = v.collapse :=
  (keysOnce_collapse v).collapse_eq

/-- **A value with repeated keys is read like what it means.** -/
theorem likeness_collapse : Likeness (fun v v' => v' = v.collapse) (· = ·) (· = ·) where
  null h := h
  string h := h
  number h := ⟨_, h, rfl⟩
  integer := eq_comm
  array := by
    rintro items v' rfl
    rw [collapse, collapseItems_eq]
    refine ⟨_, rfl, ?_⟩
    rw [List.forall₂_map_right_iff, List.forall₂_same]
    exact fun _ _ => rfl
  object := by
    rintro members v' rfl
    rw [collapse, collapseMembers_eq]
    refine ⟨_, rfl, fun key => ?_⟩
    rw [Keyed.all_ofList, Keyed.all_map]
    refine ⟨?_, ?_⟩
    · intro hnone
      rw [hnone]
      rfl
    · intro v hone
      rw [hone]
      exact ⟨_, rfl, rfl⟩
  keeping := by
    intro members members' h p
    rw [collapse, collapseMembers_eq] at h ⊢
    rw [Json.object.inj h, Keyed.keeping_ofList, Keyed.keeping_map]
  read := by
    rintro v v' rfl
    exact (collapse_collapse v).symm
  empty := rfl

/-! ### Equal values -/

/-- Equal values without repeated keys. -/
structure Equal (v w : Json) : Prop where
  same : v.Same w
  left : v.KeysOnce
  right : w.KeysOnce

theorem Equal.symm {v w : Json} (h : v.Equal w) : w.Equal v :=
  ⟨h.same.symm h.left h.right, h.right, h.left⟩

theorem Proper.keeping {ok : Number → Prop} {members : Members}
    (h : (Json.object members).Proper ok)
    (p : String → Bool) : (Json.object (Keyed.keeping p members)).Proper ok := by
  refine .object ?_ fun entry hentry => h.member (List.mem_of_mem_filter hentry)
  rw [Keyed.keys_keeping]
  exact h.keys.filter p

theorem Equal.alikeMembers {members members' : Members}
    (h : (Json.object members).Equal (.object members')) : AlikeMembers Equal members members' := by
  obtain ⟨hsame, hleft, hright⟩ := h
  rw [Same, Json.same] at hsame
  obtain ⟨-, heach⟩ := (sameObject_iff hleft.keys).mp hsame
  intro key
  rw [Keyed.all_of_nodup hleft.keys, Keyed.all_of_nodup hright.keys]
  have hrel := heach key
  generalize hfound : Keyed.get? key members = found at hrel ⊢
  generalize hfound' : Keyed.get? key members' = found' at hrel ⊢
  cases hrel with
  | none => exact ⟨fun _ => rfl, fun _ hone => absurd hone (List.cons_ne_nil _ _).symm⟩
  | some hvw =>
      refine ⟨fun hnone => absurd hnone (List.cons_ne_nil _ _), ?_⟩
      rintro v ⟨⟩
      exact ⟨_, rfl, hvw, hleft.member (Keyed.mem_of_get?_eq_some hfound),
        hright.member (Keyed.mem_of_get?_eq_some hfound')⟩

/-- **Equal values are read alike.** -/
theorem likeness_same : Likeness Equal Same (fun m n => m.same n = true) where
  null := by
    rintro v' ⟨hsame, -, -⟩
    cases v' <;> simp_all [Same, Json.same]
  string := by
    rintro s v' ⟨hsame, -, -⟩
    cases v' <;> simp_all [Same, Json.same]
  number := by
    rintro n v' ⟨hsame, -, -⟩
    cases v' with
    | number n' => exact ⟨n', rfl, by rwa [Same, Json.same] at hsame⟩
    | _ => simp [Same, Json.same] at hsame
  integer := by
    intro k n'
    cases n' with
    | integer m =>
        rw [Number.same, beq_iff_eq, Number.integer.injEq]
        exact eq_comm
    | float x => simp [Number.same]
  array := by
    rintro items v' ⟨hsame, hleft, hright⟩
    obtain ⟨items', rfl, hitems⟩ := hsame.array
    exact ⟨items', rfl, forall₂_imp_of_mem hitems fun v hv w hw hvw =>
      ⟨hvw, hleft.items v hv, hright.items w hw⟩⟩
  object := by
    rintro members v' hequal
    obtain ⟨members', rfl, -⟩ := hequal.same.object
    exact ⟨members', rfl, hequal.alikeMembers⟩
  keeping := by
    rintro members members' ⟨hsame, hleft, hright⟩ p
    refine ⟨?_, hleft.keeping p, hright.keeping p⟩
    rw [Same, Json.same] at hsame ⊢
    obtain ⟨hperm, heach⟩ := (sameObject_iff hleft.keys).mp hsame
    refine (sameObject_iff (hleft.keeping p).keys).mpr ⟨?_, fun key => ?_⟩
    · rw [Keyed.keys_keeping, Keyed.keys_keeping]
      exact hperm.filter p
    · rw [Keyed.get?_keeping, Keyed.get?_keeping]
      split
      · exact heach key
      · exact .none
  read := by
    rintro v v' ⟨hsame, hleft, hright⟩
    rwa [hleft.collapse_eq, hright.collapse_eq]
  empty := by
    rw [Same, Json.same]
    rfl

end Testbed.Json

/-
What is read from a value.

A codec reads a value or refuses it, and a codec that is made of others reads what they read.
A record takes the members of an object into a draft, one after the other.
-/
import Testbed.Json.Record
import Testbed.Proofs.Json.Proper
import Testbed.Proofs.Outcome

namespace Testbed.Json

open Outcome

/-! ### Codecs -/

namespace Codec

variable {α β : Type}

theorem map_ofJson_eq_ok {c : Codec α} {f : α → β} {v : Json} {b : β} :
    (c.map f).ofJson v = .ok b ↔ ∃ a, c.ofJson v = .ok a ∧ f a = b :=
  map_eq_ok

theorem any_ofJson_of_proper {ok : Number → Prop} {v : Json} (h : v.Proper ok) :
    any.ofJson v = .ok v :=
  congrArg Except.ok h.collapse_eq

theorem index_ofNat (n : Nat) : index.ofJson (.ofNat n) = .ok n := rfl

theorem keysOnce_of_any {v w : Json} (h : any.ofJson v = .ok w) : w.KeysOnce := by
  cases h
  exact keysOnce_collapse v

/-- Members that are read are a table of values with every key once. -/
theorem keysOnce_of_members {v : Json} {ms : Members} (h : members.ofJson v = .ok ms) :
    (Json.object ms).KeysOnce := by
  unfold members at h
  cases v with
  | object found =>
      cases h
      exact keysOnce_collapse (.object found)
  | _ => cases h

theorem members_ofJson_of_proper {ok : Number → Prop} {ms : Members}
    (h : (Json.object ms).Proper ok) : members.ofJson (.object ms) = .ok ms := by
  show Except.ok (Keyed.ofList (collapseMembers ms)) = _
  rw [h.collapseMembers_eq]

theorem list_ofJson_eq_ok {c : Codec α} {v : Json} {as : List α} :
    c.list.ofJson v = .ok as ↔ ∃ items, v = .array items
      ∧ List.Forall₂ (fun item a => c.ofJson item = .ok a) items as := by
  cases v with
  | array items =>
      refine ⟨?_, ?_⟩
      · intro h
        exact ⟨items, rfl, mapM_eq_ok.mp h⟩
      · rintro ⟨_, heq, h⟩
        cases heq
        exact mapM_eq_ok.mpr h
  | _ =>
      refine iff_of_false ?_ ?_
      · intro h
        cases h
      · rintro ⟨_, heq, -⟩
        cases heq

/-- What is in a list was read from an item. -/
theorem exists_of_mem_list {c : Codec α} {v : Json} {as : List α} (h : c.list.ofJson v = .ok as)
    {a : α} (ha : a ∈ as) : ∃ item, c.ofJson item = .ok a := by
  cases v with
  | array items =>
      obtain ⟨item, -, hitem⟩ := exists_of_mem_mapM h a ha
      exact ⟨item, hitem⟩
  | _ => cases h

/-- What is written item by item is read back item by item. -/
theorem list_ofJson_map {c : Codec α} {write : α → Json} {as : List α}
    (h : ∀ a ∈ as, c.ofJson (write a) = .ok a) :
    c.list.ofJson (.array (as.map write)) = .ok as := by
  refine list_ofJson_eq_ok.mpr ⟨_, rfl, ?_⟩
  rw [List.forall₂_map_left_iff, List.forall₂_same]
  exact h

theorem list_index_ofNats (ns : List Nat) : index.list.ofJson (Json.ofNats ns) = .ok ns :=
  list_ofJson_map fun n _ => index_ofNat n

end Codec

namespace Record

variable {σ α : Type} {r : Record σ α}

/-! ### Members taken one after the other -/

/-- A member whose key is that of a field that is still empty fills this field. -/
theorem takeMember_field {draft : σ} {name : String} {v : Json} {f : Field σ} {fill : σ → σ}
    (hfield : r.field? name = some f) (hempty : f.filled draft = false)
    (hfill : f.codec.ofJson v = .ok fill) : r.takeMember draft (name, v) = .ok (fill draft) := by
  unfold takeMember checkKey codec?
  simp only [hfield, hempty, hfill]
  rfl

theorem takeMember_other {draft : σ} {name : String} {v : Json} {other : String → Codec (σ → σ)}
    {fill : σ → σ} (hfield : r.field? name = none) (hother : r.other = some other)
    (hfill : (other name).ofJson v = .ok fill) :
    r.takeMember draft (name, v) = .ok (fill draft) := by
  unfold takeMember checkKey codec?
  simp only [hfield, hother, Option.map_some, hfill]
  rfl

/-- Members leave a draft behind. -/
def Takes (r : Record σ α) (draft : σ) (members : Members) (filled : σ) : Prop :=
  members.foldlM r.takeMember draft = .ok filled

theorem Takes.nil (draft : σ) : r.Takes draft [] draft := rfl

theorem Takes.cons {draft next filled : σ} {entry : String × Json} {rest : Members}
    (hfirst : r.takeMember draft entry = .ok next) (hrest : r.Takes next rest filled) :
    r.Takes draft (entry :: rest) filled := by
  unfold Takes
  rw [List.foldlM_cons]
  exact bind_eq_ok.mpr ⟨next, hfirst, hrest⟩

theorem Takes.append {draft next filled : σ} {first rest : Members}
    (hfirst : r.Takes draft first next) (hrest : r.Takes next rest filled) :
    r.Takes draft (first ++ rest) filled := by
  unfold Takes
  rw [List.foldlM_append]
  exact bind_eq_ok.mpr ⟨next, hfirst, hrest⟩

theorem Takes.ofJson {members : Members} {filled : σ} {a : α} (h : r.Takes r.blank members filled)
    (hfinish : r.finish filled = .ok a) : r.ofJson (.object members) = .ok a :=
  bind_eq_ok.mpr ⟨filled, h, hfinish⟩

/-- What is required is there if a record is made. -/
theorem require_eq_ok {name : String} {place : Option α} {a : α} :
    require name place = .ok a ↔ place = some a := by
  unfold require
  cases place <;> simp

end Record

end Testbed.Json

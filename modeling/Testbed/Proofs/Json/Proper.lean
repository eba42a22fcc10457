/-
Values as a program holds them.

The type of values admits objects with a key twice, which is how a reader hands them over.
`Proper` says that a value has no such object, at any depth, and that its numbers are of
some wanted sort.  Collapsing makes every value proper as far as keys are concerned, and
changes no value that is.
-/
import Testbed.Proofs.Keyed

namespace Testbed.Json

/-- Every object in a value has each key once, and every number in it is as it should be. -/
inductive Proper (ok : Number → Prop) : Json → Prop
  | null : Proper ok .null
  | boolean (value : Bool) : Proper ok (.boolean value)
  | number {n : Number} (fits : ok n) : Proper ok (.number n)
  | string (text : String) : Proper ok (.string text)
  | array {items : List Json} (each : ∀ v ∈ items, Proper ok v) : Proper ok (.array items)
  | object {members : List (String × Json)} (once : (Keyed.keys members).Nodup)
      (each : ∀ entry ∈ members, Proper ok entry.2) : Proper ok (.object members)

/-- Every object in a value has each key once. -/
abbrev KeysOnce : Json → Prop := Proper fun _ => True

/-- Every number in a value is as it should be, and keys may be repeated. -/
inductive Numbered (ok : Number → Prop) : Json → Prop
  | null : Numbered ok .null
  | boolean (value : Bool) : Numbered ok (.boolean value)
  | number {n : Number} (fits : ok n) : Numbered ok (.number n)
  | string (text : String) : Numbered ok (.string text)
  | array {items : List Json} (each : ∀ v ∈ items, Numbered ok v) : Numbered ok (.array items)
  | object {members : List (String × Json)} (each : ∀ entry ∈ members, Numbered ok entry.2) :
      Numbered ok (.object members)

variable {ok : Number → Prop}

theorem Proper.numbered {v : Json} (h : v.Proper ok) : v.Numbered ok := by
  induction h with
  | null => exact .null
  | boolean b => exact .boolean b
  | number fits => exact .number fits
  | string s => exact .string s
  | array _ ih => exact .array ih
  | object _ _ ih => exact .object ih

theorem Proper.items {items : List Json} (h : (Json.array items).Proper ok) :
    ∀ v ∈ items, v.Proper ok := by
  cases h with
  | array each => exact each

theorem Proper.keys {members : Members} (h : (Json.object members).Proper ok) :
    (Keyed.keys members).Nodup := by
  cases h with
  | object once _ => exact once

/-- What stands under a key of a proper object is proper. -/
theorem Proper.member {members : Members} (h : (Json.object members).Proper ok) {key : String}
    {v : Json} (hmem : (key, v) ∈ members) : v.Proper ok := by
  cases h with
  | object _ each => exact each _ hmem

theorem Proper.mono {ok' : Number → Prop} {v : Json} (h : v.Proper ok) (hok : ∀ n, ok n → ok' n) :
    v.Proper ok' := by
  induction h with
  | null => exact .null
  | boolean b => exact .boolean b
  | number fits => exact .number (hok _ fits)
  | string s => exact .string s
  | array _ ih => exact .array ih
  | object once _ ih => exact .object once ih

theorem proper_empty : (Json.object []).Proper ok :=
  .object List.nodup_nil fun _ hentry => absurd hentry List.not_mem_nil

/-- A table is proper if everything that was set in it is. -/
theorem Proper.ofList {members : Members} (h : ∀ entry ∈ members, entry.2.Proper ok) :
    (Json.object (Keyed.ofList members)).Proper ok :=
  .object (Keyed.nodup_keys_ofList members) fun entry hentry =>
    h entry (Keyed.mem_of_mem_ofList hentry)

theorem proper_ofNats {ns : List Nat} (h : ∀ n ∈ ns, ok (.integer n)) :
    (Json.ofNats ns).Proper ok := by
  refine .array fun v hv => ?_
  obtain ⟨n, hn, rfl⟩ := List.mem_map.mp hv
  exact .number (h n hn)

/-! ### Collapsing -/

theorem collapseItems_eq (items : List Json) : collapseItems items = items.map collapse := by
  induction items with
  | nil => rfl
  | cons v rest ih => rw [collapseItems, ih, List.map_cons]

theorem collapseMembers_eq (members : Members) :
    collapseMembers members = members.map (Prod.map id collapse) := by
  induction members with
  | nil => rfl
  | cons entry rest ih =>
      obtain ⟨k, v⟩ := entry
      rw [collapseMembers, ih]
      rfl

theorem collapseMembers_of_forall {members : Members}
    (h : ∀ entry ∈ members, entry.2.collapse = entry.2) : collapseMembers members = members := by
  rw [collapseMembers_eq]
  refine (List.map_congr_left fun entry hentry => ?_).trans (List.map_id members)
  exact Prod.ext rfl (h entry hentry)

/-- **A proper value collapses to itself.** -/
theorem Proper.collapse_eq {v : Json} (h : v.Proper ok) : v.collapse = v := by
  induction h with
  | null => rfl
  | boolean b => rfl
  | number _ => rfl
  | string s => rfl
  | @array items _ ih => rw [collapse, collapseItems_eq, List.map_congr_left ih, List.map_id']
  | object once _ ih =>
      rw [collapse, collapseMembers_of_forall ih, Keyed.ofList_of_nodup once]

theorem Proper.collapseMembers_eq {members : Members} (h : (Json.object members).Proper ok) :
    Keyed.ofList (collapseMembers members) = members := by
  have hcollapse := h.collapse_eq
  rw [collapse] at hcollapse
  exact Json.object.inj hcollapse

mutual

/-- **What a value collapses to has each key once.** -/
theorem keysOnce_collapse : (v : Json) → v.collapse.KeysOnce
  | .null => .null
  | .boolean b => .boolean b
  | .number _ => .number trivial
  | .string s => .string s
  | .array items => by
      rw [collapse]
      exact .array (keysOnce_collapseItems items)
  | .object members => by
      rw [collapse]
      exact .ofList (keysOnce_collapseMembers members)

theorem keysOnce_collapseItems : (items : List Json) → ∀ v ∈ collapseItems items, v.KeysOnce
  | [] => by
      intro v hv
      cases hv
  | w :: rest => by
      intro v hv
      rw [collapseItems] at hv
      rcases List.mem_cons.mp hv with rfl | hv
      · exact keysOnce_collapse w
      · exact keysOnce_collapseItems rest v hv

theorem keysOnce_collapseMembers : (members : List (String × Json)) →
    ∀ entry ∈ collapseMembers members, entry.2.KeysOnce
  | [] => by
      intro entry hentry
      cases hentry
  | (k, w) :: rest => by
      intro entry hentry
      rw [collapseMembers] at hentry
      rcases List.mem_cons.mp hentry with rfl | hentry
      · exact keysOnce_collapse w
      · exact keysOnce_collapseMembers rest entry hentry

end

end Testbed.Json

/-
Equality of values, for which the order of members does not count.

The test looks up every member of one object in the other and compares how many there are.  That
is enough where no key is repeated: then equal objects have the same keys and equal values under
each of them, and the test gives the same answer from the other side.
-/
import Testbed.Proofs.Json.Proper
import Mathlib.Data.List.Forall2
import Mathlib.Data.List.Perm.Subperm

namespace Testbed

theorem Binary64.same_comm (x y : Binary64) : x.same y = y.same x := by
  unfold same
  rw [Bool.and_comm, Bool.beq_comm]

theorem Number.same_comm (m n : Number) : m.same n = n.same m := by
  cases m <;> cases n <;> simp [same, Binary64.same_comm, Bool.beq_comm]

namespace Json

/-- Two values are equal. -/
abbrev Same (v w : Json) : Prop := v.same w = true

theorem sameItems_iff {as bs : List Json} :
    sameItems as bs = true ↔ List.Forall₂ Same as bs := by
  induction as generalizing bs with
  | nil => cases bs <;> simp [sameItems]
  | cons a as ih => cases bs <;> simp [sameItems, ih]

theorem sameMembers_iff {a b : Members} :
    sameMembers a b = true ↔ ∀ entry ∈ a, ∃ w, Keyed.get? entry.1 b = some w ∧ entry.2.Same w := by
  induction a with
  | nil => simp [sameMembers]
  | cons entry rest ih =>
      obtain ⟨k, v⟩ := entry
      rw [sameMembers, Bool.and_eq_true, ih, List.forall_mem_cons]
      refine and_congr_left fun _ => ?_
      cases Keyed.get? k b <;> simp

/-- What an array is equal to is an array. -/
theorem Same.array {items : List Json} {v : Json} (h : (Json.array items).Same v) :
    ∃ items', v = .array items' ∧ List.Forall₂ Same items items' := by
  cases v with
  | array items' =>
      rw [Same, same] at h
      exact ⟨items', rfl, sameItems_iff.mp h⟩
  | _ => simp [Same, same] at h

/-- What an object is equal to is an object. -/
theorem Same.object {members : Members} {v : Json} (h : (Json.object members).Same v) :
    ∃ members', v = .object members' ∧ sameObject members members' = true := by
  cases v with
  | object members' =>
      rw [Same, same] at h
      exact ⟨members', rfl, h⟩
  | _ => simp [Same, same] at h

/-- **Objects without repeated keys are equal if they have the same keys, and under each key equal
values.** -/
theorem sameObject_iff {a b : Members} (ha : (Keyed.keys a).Nodup) :
    sameObject a b = true ↔ (Keyed.keys a).Perm (Keyed.keys b)
      ∧ ∀ key, Option.Rel Same (Keyed.get? key a) (Keyed.get? key b) := by
  rw [sameObject, Bool.and_eq_true, sameMembers_iff, beq_iff_eq]
  refine ⟨?_, ?_⟩
  · rintro ⟨hlength, heach⟩
    have hsubset : Keyed.keys a ⊆ Keyed.keys b := by
      intro key hkey
      obtain ⟨entry, hentry, rfl⟩ := List.mem_map.mp hkey
      obtain ⟨w, hw, -⟩ := heach entry hentry
      exact Keyed.mem_keys_of_mem (Keyed.mem_of_get?_eq_some hw)
    have hperm : (Keyed.keys a).Perm (Keyed.keys b) := by
      refine (List.subperm_of_subset ha hsubset).perm_of_length_le ?_
      rw [Keyed.keys, Keyed.keys, List.length_map, List.length_map]
      exact Nat.le_of_eq hlength.symm
    refine ⟨hperm, fun key => ?_⟩
    cases hv : Keyed.get? key a with
    | some v =>
        obtain ⟨w, hw, hsame⟩ := heach _ (Keyed.mem_of_get?_eq_some hv)
        dsimp only at hw
        rw [hw]
        exact .some hsame
    | none =>
        rw [Keyed.get?_eq_none_iff, hperm.mem_iff, ← Keyed.get?_eq_none_iff] at hv
        rw [hv]
        exact .none
  · rintro ⟨hperm, heach⟩
    refine ⟨by simpa [Keyed.keys] using hperm.length_eq, fun entry hentry => ?_⟩
    have hrel := heach entry.1
    rw [Keyed.get?_of_mem ha hentry] at hrel
    generalize Keyed.get? entry.1 b = found at hrel
    cases hrel with
    | some hsame => exact ⟨_, rfl, hsame⟩

theorem forall₂_imp_of_mem {α β : Type} {R S : α → β → Prop} {as : List α} {bs : List β}
    (h : List.Forall₂ R as bs) (himp : ∀ a ∈ as, ∀ b ∈ bs, R a b → S a b) :
    List.Forall₂ S as bs := by
  induction h with
  | nil => exact .nil
  | cons hab _ ih =>
      refine .cons (himp _ List.mem_cons_self _ List.mem_cons_self hab) (ih ?_)
      intro a ha b hb
      exact himp a (List.mem_cons_of_mem _ ha) b (List.mem_cons_of_mem _ hb)

/-- **Equality is symmetric for values without repeated keys.** -/
theorem Same.symm {v w : Json} (h : v.Same w) (hv : v.KeysOnce) (hw : w.KeysOnce) : w.Same v := by
  induction hv generalizing w with
  | null => cases w <;> simp_all [Same, same]
  | boolean b => cases w <;> simp_all [Same, same]
  | number _ =>
      cases w with
      | number n =>
          rw [Same, same] at h ⊢
          rwa [Number.same_comm]
      | _ => simp [Same, same] at h
  | string s => cases w <;> simp_all [Same, same]
  | array _ ih =>
      obtain ⟨items', rfl, hitems⟩ := h.array
      rw [Same, same, sameItems_iff]
      exact (forall₂_imp_of_mem hitems fun a ha b hb hab => ih a ha hab (hw.items b hb)).flip
  | @object members once _ ih =>
      obtain ⟨members', rfl, hsame⟩ := h.object
      obtain ⟨hperm, heach⟩ := (sameObject_iff once).mp hsame
      rw [Same, same]
      refine (sameObject_iff hw.keys).mpr ⟨hperm.symm, fun key => ?_⟩
      have hrel := heach key
      generalize hfound : Keyed.get? key members = found at hrel ⊢
      generalize hfound' : Keyed.get? key members' = found' at hrel ⊢
      cases hrel with
      | none => exact .none
      | some hvw =>
          exact .some (ih _ (Keyed.mem_of_get?_eq_some hfound) hvw
            (hw.member (Keyed.mem_of_get?_eq_some hfound')))

end Json

end Testbed

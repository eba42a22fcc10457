/-
Lists collapsed to first places.

A list that is put together item by item, where an item that is there already is not added
again, is what `eraseDups` leaves of all the items: each of them in its first place.
-/
import Mathlib.Data.List.Nodup
import Mathlib.Data.List.Induction

namespace Testbed.FirstPlaces

variable {α β : Type} [DecidableEq α] [DecidableEq β]

/-- An item at the end of a list counts if it is new. -/
theorem eraseDups_concat (items : List α) (a : α) :
    (items ++ [a]).eraseDups = if a ∈ items then items.eraseDups else items.eraseDups ++ [a] := by
  rw [List.eraseDups_append]
  by_cases hmem : a ∈ items
  · simp [List.removeAll, hmem]
  · simp [List.removeAll, hmem, List.eraseDups_cons]

/-- An item may be added to a list unless it is there, or be added and collapsed. -/
theorem add_eraseDups (items : List α) (a : α) :
    (if items.eraseDups.contains a then items.eraseDups else items.eraseDups ++ [a])
      = (items ++ [a]).eraseDups := by
  rw [eraseDups_concat]
  simp only [List.contains_iff_mem, List.mem_eraseDups]

theorem nodup_eraseDups (items : List α) : items.eraseDups.Nodup := by
  induction items using List.reverseRecOn with
  | nil => exact List.nodup_nil
  | append_singleton items a ih =>
      rw [eraseDups_concat]
      by_cases hmem : a ∈ items
      · rwa [if_pos hmem]
      · rw [if_neg hmem]
        refine List.nodup_append.mpr ⟨ih, List.nodup_singleton a, ?_⟩
        rintro b hb c hc rfl
        rw [List.mem_singleton.mp hc] at hb
        exact hmem (List.mem_eraseDups.mp hb)

theorem eraseDups_of_nodup {items : List α} (h : items.Nodup) : items.eraseDups = items := by
  induction items using List.reverseRecOn with
  | nil => rfl
  | append_singleton items a ih =>
      obtain ⟨hitems, -, hapart⟩ := List.nodup_append.mp h
      have hnew : a ∉ items := fun hmem => hapart a hmem a (List.mem_singleton_self a) rfl
      rw [eraseDups_concat, if_neg hnew, ih hitems]

/-- What is collapsed twice, with a function in between, need not be collapsed before it. -/
theorem eraseDups_map_eraseDups (f : α → β) (items : List α) :
    (items.eraseDups.map f).eraseDups = (items.map f).eraseDups := by
  induction items using List.reverseRecOn with
  | nil => rfl
  | append_singleton items a ih =>
      rw [eraseDups_concat, List.map_append, List.map_singleton, eraseDups_concat]
      by_cases hmem : a ∈ items
      · rw [if_pos hmem, if_pos (List.mem_map_of_mem hmem), ih]
      · rw [if_neg hmem, List.map_append, List.map_singleton, eraseDups_concat, ih]
        have hiff : f a ∈ items.eraseDups.map f ↔ f a ∈ items.map f := by
          simp only [List.mem_map, List.mem_eraseDups]
        simp only [hiff]

/-- A function may be applied before collapsing or after it, if no two items get the same value. -/
theorem map_eraseDups_eq_iff (f : α → β) (items : List α) :
    items.eraseDups.map f = (items.map f).eraseDups ↔ (items.eraseDups.map f).Nodup := by
  rw [← eraseDups_map_eraseDups]
  refine ⟨?_, ?_⟩
  · intro h
    rw [h]
    exact nodup_eraseDups _
  · intro h
    exact (eraseDups_of_nodup h).symm

omit [DecidableEq β] in
theorem nodup_map_eraseDups_iff (f : α → β) (items : List α) :
    (items.eraseDups.map f).Nodup ↔ ∀ a ∈ items, ∀ b ∈ items, f a = f b → a = b := by
  rw [List.nodup_map_iff_inj_on (nodup_eraseDups items)]
  simp only [List.mem_eraseDups]

/-- The first item of some sort stands in its first place. -/
theorem find?_eraseDups (p : α → Bool) (items : List α) :
    items.eraseDups.find? p = items.find? p := by
  induction items using List.reverseRecOn with
  | nil => rfl
  | append_singleton items a ih =>
      rw [eraseDups_concat, List.find?_append, ← ih]
      by_cases hmem : a ∈ items
      · rw [if_pos hmem]
        cases hfound : items.eraseDups.find? p with
        | some b => rfl
        | none =>
            have hno := List.find?_eq_none.mp hfound a (List.mem_eraseDups.mpr hmem)
            simp [hno]
      · rw [if_neg hmem, List.find?_append]

end Testbed.FirstPlaces

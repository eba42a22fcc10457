/-
What a keyed table holds after settings.

Setting a key either replaces the pair in its place or appends a new one, so a table
that is built by settings has every key once, in the order in which the keys were
first set.  Settings that never repeat a key leave exactly the list of settings.
-/
import Testbed.Json.Basic
import Testbed.Proofs.FirstPlaces

namespace Testbed.Keyed

variable {α : Type}

theorem get?_isSome_iff (key : String) (entries : List (String × α)) :
    (get? key entries).isSome = true ↔ key ∈ keys entries := by
  induction entries with
  | nil => simp [get?, keys]
  | cons entry rest ih =>
      obtain ⟨k, v⟩ := entry
      simp only [get?, keys, List.map_cons, List.mem_cons]
      by_cases hk : k = key
      · simp [hk]
      · rw [if_neg hk, ih]
        simp [keys, Ne.symm hk]

theorem has_iff (key : String) (entries : List (String × α)) :
    has key entries = true ↔ key ∈ keys entries :=
  get?_isSome_iff key entries

theorem get?_eq_none_iff {key : String} {entries : List (String × α)} :
    get? key entries = none ↔ key ∉ keys entries := by
  rw [← get?_isSome_iff, Bool.not_eq_true, Option.isSome_eq_false_iff, Option.isNone_iff_eq_none]

theorem mem_keys_of_mem {key : String} {entries : List (String × α)} {value : α}
    (h : (key, value) ∈ entries) : key ∈ keys entries :=
  List.mem_map_of_mem h

theorem mem_of_get?_eq_some {key : String} {entries : List (String × α)} {value : α}
    (h : get? key entries = some value) : (key, value) ∈ entries := by
  induction entries with
  | nil => cases h
  | cons entry rest ih =>
      obtain ⟨k, v⟩ := entry
      rw [get?] at h
      split at h
      · rename_i hk
        cases h
        rw [hk]
        exact List.mem_cons_self
      · exact List.mem_cons_of_mem _ (ih h)

/-- With every key once, what is in a table is what is found in it. -/
theorem get?_of_mem {key : String} {entries : List (String × α)} {value : α}
    (h : (keys entries).Nodup) (hmem : (key, value) ∈ entries) :
    get? key entries = some value := by
  induction entries with
  | nil => cases hmem
  | cons entry rest ih =>
      obtain ⟨k, v⟩ := entry
      obtain ⟨hnew, hrest⟩ := List.nodup_cons.mp h
      rw [get?]
      rcases List.mem_cons.mp hmem with heq | hmem
      · cases heq
        exact if_pos rfl
      · have hne : k ≠ key := by
          rintro rfl
          exact hnew (mem_keys_of_mem hmem)
        rw [if_neg hne, ih hrest hmem]

/-- Two tables with the same keys, each of them once, are the same if they have the same values. -/
theorem eq_of_get?_eq {entries others : List (String × α)} (h : (keys entries).Nodup)
    (hkeys : keys entries = keys others) (hvalues : ∀ key, get? key entries = get? key others) :
    entries = others := by
  induction entries generalizing others with
  | nil => exact (List.map_eq_nil_iff.mp hkeys.symm).symm
  | cons entry rest ih =>
      obtain ⟨k, v⟩ := entry
      obtain ⟨⟨k', v'⟩, rest', rfl⟩ : ∃ entry' rest', others = entry' :: rest' := by
        cases others with
        | nil => cases hkeys
        | cons entry' rest' => exact ⟨entry', rest', rfl⟩
      obtain ⟨rfl, hrest⟩ : k = k' ∧ keys rest = keys rest' := List.cons.inj hkeys
      obtain ⟨hnew, hnodup⟩ := List.nodup_cons.mp h
      have hvalue : v = v' := by simpa [get?] using hvalues k
      have hothers : ∀ key, get? key rest = get? key rest' := by
        intro key
        by_cases hk : k = key
        · subst hk
          rw [get?_eq_none_iff.mpr hnew, get?_eq_none_iff.mpr (hrest ▸ hnew)]
        · simpa [get?, hk] using hvalues key
      rw [hvalue, ih hnodup hrest hothers]

/-! ### Keeping some keys -/

/-- A table with some keys left out. -/
def keeping (p : String → Bool) (entries : List (String × α)) : List (String × α) :=
  entries.filter fun entry => p entry.1

theorem keys_keeping (p : String → Bool) (entries : List (String × α)) :
    keys (keeping p entries) = (keys entries).filter p := by
  rw [keys, keys, keeping, List.filter_map]
  rfl

theorem get?_keeping (p : String → Bool) (key : String) (entries : List (String × α)) :
    get? key (keeping p entries) = if p key then get? key entries else none := by
  induction entries with
  | nil => simp [keeping, get?]
  | cons entry rest ih =>
      obtain ⟨k, v⟩ := entry
      unfold keeping at ih ⊢
      rw [List.filter_cons, get?]
      by_cases hk : k = key
      · subst hk
        by_cases hp : p k = true
        · simp [hp, get?]
        · simpa [hp] using ih
      · by_cases hp : p k = true
        · simpa [hp, hk, get?] using ih
        · simpa [hp, hk] using ih

/-! ### All values under a key -/

/-- All values under a key, in order. -/
def all (key : String) (entries : List (String × α)) : List α :=
  entries.filterMap fun entry => if entry.1 = key then some entry.2 else none

@[simp] theorem all_nil (key : String) : all key ([] : List (String × α)) = [] := rfl

theorem all_cons_self (key : String) (value : α) (rest : List (String × α)) :
    all key ((key, value) :: rest) = value :: all key rest := by
  simp [all]

theorem all_cons_ne {key k : String} (h : k ≠ key) (value : α) (rest : List (String × α)) :
    all key ((k, value) :: rest) = all key rest := by
  simp [all, h]

theorem all_append (key : String) (first rest : List (String × α)) :
    all key (first ++ rest) = all key first ++ all key rest :=
  List.filterMap_append

theorem head?_all (key : String) (entries : List (String × α)) :
    (all key entries).head? = get? key entries := by
  induction entries with
  | nil => rfl
  | cons entry rest ih =>
      obtain ⟨k, v⟩ := entry
      rw [get?]
      by_cases hk : k = key
      · subst hk
        rw [all_cons_self, if_pos rfl]
        rfl
      · rw [all_cons_ne hk, if_neg hk, ih]

/-- With every key once there is at most one value under a key. -/
theorem all_of_nodup {key : String} {entries : List (String × α)} (h : (keys entries).Nodup) :
    all key entries = (get? key entries).toList := by
  induction entries with
  | nil => rfl
  | cons entry rest ih =>
      obtain ⟨k, v⟩ := entry
      obtain ⟨hnew, hrest⟩ := List.nodup_cons.mp h
      rw [get?]
      by_cases hk : k = key
      · subst hk
        rw [all_cons_self, if_pos rfl, ih hrest, get?_eq_none_iff.mpr hnew]
        rfl
      · rw [all_cons_ne hk, if_neg hk, ih hrest]

theorem nodup_keys_zip {names : List String} (h : names.Nodup) (values : List α) :
    (keys (names.zip values)).Nodup := by
  rw [keys, List.zip_eq_zip_take_min, List.map_fst_zip (by simp)]
  exact (List.take_sublist _ _).nodup h

/-! ### Setting one key -/

theorem insert_of_notMem {key : String} {entries : List (String × α)} (value : α)
    (h : key ∉ keys entries) : insert key value entries = entries ++ [(key, value)] := by
  induction entries with
  | nil => rfl
  | cons entry rest ih =>
      obtain ⟨k, v⟩ := entry
      simp only [keys, List.map_cons, List.mem_cons, not_or] at h
      rw [insert, if_neg (Ne.symm h.1), ih h.2]
      rfl

theorem keys_insert (key : String) (value : α) (entries : List (String × α)) :
    keys (insert key value entries)
      = if key ∈ keys entries then keys entries else keys entries ++ [key] := by
  induction entries with
  | nil => simp [insert, keys]
  | cons entry rest ih =>
      obtain ⟨k, v⟩ := entry
      unfold insert
      by_cases hk : k = key
      · simp [hk, keys]
      · rw [if_neg hk]
        simp only [keys, List.map_cons] at ih ⊢
        rw [ih]
        by_cases hmem : key ∈ rest.map Prod.fst
        · simp [hmem]
        · simp [hmem, Ne.symm hk]

theorem mem_keys_insert {key : String} {value : α} {entries : List (String × α)} {k : String} :
    k ∈ keys (insert key value entries) ↔ k ∈ keys entries ∨ k = key := by
  rw [keys_insert]
  by_cases h : key ∈ keys entries
  · rw [if_pos h]
    exact ⟨Or.inl, fun hk => hk.elim id fun he => he ▸ h⟩
  · rw [if_neg h]
    simp

theorem nodup_keys_insert {key : String} {value : α} {entries : List (String × α)}
    (h : (keys entries).Nodup) : (keys (insert key value entries)).Nodup := by
  rw [keys_insert]
  by_cases hmem : key ∈ keys entries
  · rwa [if_pos hmem]
  · rw [if_neg hmem]
    exact List.nodup_append.mpr ⟨h, List.nodup_singleton key, by
      intro a ha b hb hab
      exact hmem (by rwa [← List.mem_singleton.mp hb, ← hab])⟩

theorem get?_insert (k key : String) (value : α) (entries : List (String × α)) :
    get? k (insert key value entries) = if key = k then some value else get? k entries := by
  induction entries with
  | nil => simp [insert, get?]
  | cons entry rest ih =>
      obtain ⟨k', v⟩ := entry
      unfold insert
      by_cases hk : k' = key
      · subst hk
        rw [if_pos rfl, get?, get?]
        by_cases hkey : k' = k
        · simp [hkey]
        · simp [hkey]
      · rw [if_neg hk, get?, ih, get?]
        by_cases hkey : k' = k
        · simp [hkey, show ¬ key = k by rintro rfl; exact hk hkey]
        · simp [hkey]

theorem keeping_insert (p : String → Bool) (key : String) (value : α)
    (entries : List (String × α)) : keeping p (insert key value entries)
      = if p key then insert key value (keeping p entries) else keeping p entries := by
  induction entries with
  | nil => cases hp : p key <;> simp [insert, keeping, hp]
  | cons entry rest ih =>
      obtain ⟨k, v⟩ := entry
      unfold keeping at ih ⊢
      rw [insert]
      by_cases hk : k = key
      · subst hk
        cases hp : p k <;> simp [hp, insert]
      · rw [if_neg hk, List.filter_cons, ih, List.filter_cons]
        cases hp : p key with
        | false => simp
        | true =>
            cases hp' : p k with
            | false => simp
            | true =>
                rw [if_pos rfl, if_pos rfl, if_pos rfl, if_pos rfl, insert, if_neg hk]

/-! ### Setting keys one after the other -/

/-- Sets the keys of a list of settings. -/
def setAll (table : List (String × α)) (entries : List (String × α)) : List (String × α) :=
  entries.foldl (fun table entry => insert entry.1 entry.2 table) table

theorem ofList_eq_setAll (entries : List (String × α)) : ofList entries = setAll [] entries := rfl

theorem ofList_concat (entries : List (String × α)) (key : String) (value : α) :
    ofList (entries ++ [(key, value)]) = insert key value (ofList entries) :=
  List.foldl_concat _ _ _ _

theorem setAll_of_nodup : ∀ (entries table : List (String × α)),
    (keys (table ++ entries)).Nodup → setAll table entries = table ++ entries := by
  intro entries
  induction entries with
  | nil => intro table _; simp [setAll]
  | cons entry rest ih =>
      intro table h
      have hnew : entry.1 ∉ keys table := by
        rw [keys, List.map_append, List.nodup_append] at h
        intro hmem
        exact h.2.2 _ hmem entry.1 (by simp) rfl
      show setAll (insert entry.1 entry.2 table) rest = table ++ entry :: rest
      rw [insert_of_notMem entry.2 hnew, ih]
      · simp
      · simpa using h

/-- **Settings that never repeat a key are the table that they leave behind.** -/
theorem ofList_of_nodup {entries : List (String × α)} (h : (keys entries).Nodup) :
    ofList entries = entries := by
  rw [ofList_eq_setAll, setAll_of_nodup entries [] (by simpa using h), List.nil_append]

theorem mem_keys_setAll : ∀ (entries table : List (String × α)) (k : String),
    k ∈ keys (setAll table entries) ↔ k ∈ keys table ∨ k ∈ keys entries := by
  intro entries
  induction entries with
  | nil => intro table k; simp [setAll, keys]
  | cons entry rest ih =>
      intro table k
      show k ∈ keys (setAll (insert entry.1 entry.2 table) rest) ↔ _
      rw [ih, mem_keys_insert]
      simp only [keys, List.map_cons, List.mem_cons]
      exact or_assoc

theorem mem_keys_ofList (entries : List (String × α)) (k : String) :
    k ∈ keys (ofList entries) ↔ k ∈ keys entries := by
  rw [ofList_eq_setAll, mem_keys_setAll]
  simp [keys]

theorem nodup_keys_setAll : ∀ (entries table : List (String × α)),
    (keys table).Nodup → (keys (setAll table entries)).Nodup := by
  intro entries
  induction entries with
  | nil => intro table h; exact h
  | cons entry rest ih => intro table h; exact ih _ (nodup_keys_insert h)

/-- A table that is built by settings has every key once. -/
theorem nodup_keys_ofList (entries : List (String × α)) : (keys (ofList entries)).Nodup :=
  nodup_keys_setAll entries [] List.nodup_nil

/-- **Keys stand in the order in which they were set first.** -/
theorem keys_ofList (entries : List (String × α)) :
    keys (ofList entries) = (keys entries).eraseDups := by
  induction entries using List.reverseRecOn with
  | nil => rfl
  | append_singleton entries entry ih =>
      obtain ⟨key, value⟩ := entry
      have hkeys : keys (entries ++ [(key, value)]) = keys entries ++ [key] := List.map_append
      rw [ofList_concat, keys_insert, hkeys, FirstPlaces.eraseDups_concat, ih]
      simp only [List.mem_eraseDups]

/-! ### Values -/

/-- A pair is in a table because it was set, or because it was there before. -/
theorem mem_of_mem_insert {key : String} {value : α} {entries : List (String × α)}
    {entry : String × α} (h : entry ∈ insert key value entries) :
    entry = (key, value) ∨ entry ∈ entries := by
  induction entries with
  | nil => exact Or.inl (List.mem_singleton.mp h)
  | cons first rest ih =>
      obtain ⟨k, v⟩ := first
      unfold insert at h
      by_cases hk : k = key
      · rw [if_pos hk] at h
        rcases List.mem_cons.mp h with rfl | h
        · exact Or.inl (by rw [hk])
        · exact Or.inr (List.mem_cons_of_mem _ h)
      · rw [if_neg hk] at h
        rcases List.mem_cons.mp h with rfl | h
        · exact Or.inr List.mem_cons_self
        · exact (ih h).imp_right (List.mem_cons_of_mem _)

theorem mem_of_mem_setAll : ∀ (entries table : List (String × α)) {entry : String × α},
    entry ∈ setAll table entries → entry ∈ table ∨ entry ∈ entries := by
  intro entries
  induction entries with
  | nil => intro table entry h; exact Or.inl h
  | cons first rest ih =>
      intro table entry h
      rcases ih (insert first.1 first.2 table) h with h | h
      · rcases mem_of_mem_insert h with rfl | h
        · exact Or.inr List.mem_cons_self
        · exact Or.inl h
      · exact Or.inr (List.mem_cons_of_mem _ h)

/-- What settings leave behind was set by one of them. -/
theorem mem_of_mem_ofList {entries : List (String × α)} {entry : String × α}
    (h : entry ∈ ofList entries) : entry ∈ entries := by
  rcases mem_of_mem_setAll entries [] h with h | h
  · exact absurd h List.not_mem_nil
  · exact h

theorem get?_setAll (key : String) : ∀ (entries table : List (String × α)),
    get? key (setAll table entries) = (all key entries).getLast?.or (get? key table) := by
  intro entries
  induction entries with
  | nil => intro table; rfl
  | cons entry rest ih =>
      intro table
      obtain ⟨k, v⟩ := entry
      show get? key (setAll (insert k v table) rest) = _
      rw [ih, get?_insert]
      by_cases hk : k = key
      · subst hk
        rw [if_pos rfl, all_cons_self, List.getLast?_cons]
        cases (all k rest).getLast? <;> rfl
      · rw [if_neg hk, all_cons_ne hk]

/-- **Of the settings of one key the last one counts.** -/
theorem get?_ofList (key : String) (entries : List (String × α)) :
    get? key (ofList entries) = (all key entries).getLast? := by
  rw [ofList_eq_setAll, get?_setAll]
  exact Option.or_none

theorem all_ofList (key : String) (entries : List (String × α)) :
    all key (ofList entries) = (all key entries).getLast?.toList := by
  rw [all_of_nodup (nodup_keys_ofList entries), get?_ofList]

theorem keeping_setAll (p : String → Bool) : ∀ (entries table : List (String × α)),
    keeping p (setAll table entries) = setAll (keeping p table) (keeping p entries) := by
  intro entries
  induction entries with
  | nil => intro table; rfl
  | cons entry rest ih =>
      intro table
      obtain ⟨k, v⟩ := entry
      show keeping p (setAll (insert k v table) rest) = _
      rw [ih, keeping_insert]
      cases hp : p k <;> simp [keeping, hp, setAll]

/-- Keys may be left out before they are set, or of the table that is left behind. -/
theorem keeping_ofList (p : String → Bool) (entries : List (String × α)) :
    keeping p (ofList entries) = ofList (keeping p entries) :=
  keeping_setAll p entries []

/-- The first key of some sort is the first key of this sort that was set. -/
theorem findSome?_keys_setAll {β : Type} (f : String → Option β) :
    ∀ (entries table : List (String × α)), (keys (setAll table entries)).findSome? f
      = (keys table ++ keys entries).findSome? f := by
  intro entries
  induction entries with
  | nil => intro table; simp [setAll, keys]
  | cons entry rest ih =>
      intro table
      obtain ⟨k, v⟩ := entry
      show (keys (setAll (insert k v table) rest)).findSome? f = _
      rw [ih, keys_insert]
      show _ = (keys table ++ k :: keys rest).findSome? f
      by_cases hmem : k ∈ keys table
      · -- a key that is set again is found where it was set first
        rw [if_pos hmem, List.findSome?_append, List.findSome?_append]
        cases hfound : (keys table).findSome? f with
        | some b => rfl
        | none => rw [List.findSome?_cons, List.findSome?_eq_none_iff.mp hfound k hmem]
      · rw [if_neg hmem, List.append_assoc]
        rfl

theorem findSome?_keys_ofList {β : Type} (f : String → Option β) (entries : List (String × α)) :
    (keys (ofList entries)).findSome? f = (keys entries).findSome? f := by
  rw [ofList_eq_setAll, findSome?_keys_setAll]
  rfl

variable {β : Type}

theorem get?_map (f : α → β) (key : String) (entries : List (String × α)) :
    get? key (entries.map (Prod.map id f)) = (get? key entries).map f := by
  induction entries with
  | nil => rfl
  | cons first rest ih =>
      obtain ⟨k, v⟩ := first
      simp only [List.map_cons, get?, Prod.map_apply, id_eq]
      by_cases hk : k = key
      · rw [if_pos hk, if_pos hk]
        rfl
      · rw [if_neg hk, if_neg hk, ih]

theorem insert_map (f : α → β) (key : String) (value : α) (entries : List (String × α)) :
    insert key (f value) (entries.map (Prod.map id f))
      = (insert key value entries).map (Prod.map id f) := by
  induction entries with
  | nil => rfl
  | cons first rest ih =>
      obtain ⟨k, v⟩ := first
      simp only [List.map_cons, insert, Prod.map_apply, id_eq]
      by_cases hk : k = key
      · rw [if_pos hk, if_pos hk]
        rfl
      · rw [if_neg hk, if_neg hk, ih]
        rfl

theorem setAll_map (f : α → β) : ∀ (entries table : List (String × α)),
    setAll (table.map (Prod.map id f)) (entries.map (Prod.map id f))
      = (setAll table entries).map (Prod.map id f) := by
  intro entries
  induction entries with
  | nil => intro table; rfl
  | cons first rest ih =>
      intro table
      show setAll (insert first.1 (f first.2) (table.map (Prod.map id f)))
          (rest.map (Prod.map id f)) = _
      rw [insert_map, ih]
      rfl

theorem all_map (f : α → β) (key : String) (entries : List (String × α)) :
    all key (entries.map (Prod.map id f)) = (all key entries).map f := by
  unfold all
  rw [List.filterMap_map, List.map_filterMap]
  refine List.filterMap_congr fun entry _ => ?_
  by_cases hk : entry.1 = key <;> simp [hk]

theorem keeping_map (f : α → β) (p : String → Bool) (entries : List (String × α)) :
    keeping p (entries.map (Prod.map id f)) = (keeping p entries).map (Prod.map id f) := by
  unfold keeping
  rw [List.filter_map]
  rfl

theorem keys_map (f : α → β) (entries : List (String × α)) :
    keys (entries.map (Prod.map id f)) = keys entries := by
  unfold keys
  rw [List.map_map]
  rfl

/-- Settings may be changed before they are made, or in the table that they leave behind. -/
theorem ofList_map (f : α → β) (entries : List (String × α)) :
    ofList (entries.map (Prod.map id f)) = (ofList entries).map (Prod.map id f) :=
  setAll_map f entries []

end Testbed.Keyed

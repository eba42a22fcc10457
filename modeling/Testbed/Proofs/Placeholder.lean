/-
The names that texts and values refer to.

A text refers to a name exactly if it is that name behind a dollar sign and the name
is an identifier.  The scan for the names in a value goes through the strings of the
value from left to right and keeps each name once, so what it finds is the names that the
strings refer to, each in its first place.  Keys are not strings of a value.
-/
import Testbed.Proofs.FirstPlaces
import Testbed.Validation

namespace Testbed

open FirstPlaces

/-- A name that can be referred to: a letter or an underscore, then letters, digits and
underscores. -/
def IsIdentifier (name : String) : Prop :=
  ∃ first rest, name.toList = first :: rest ∧ isNameStart first = true
    ∧ ∀ c ∈ rest, isNameChar c = true

theorem toList_reference (name : String) : (reference name).toList = '$' :: name.toList := by
  simp [reference]

theorem reference_injective {name other : String} (h : reference name = reference other) :
    name = other := by
  have hlists := congrArg String.toList h
  rw [toList_reference, toList_reference] at hlists
  exact String.toList_inj.mp (List.cons.inj hlists).2

/-- **A text refers to a name exactly if it is `$name` and the name is an identifier.** -/
theorem placeholderName?_eq_some_iff {text name : String} :
    placeholderName? text = some name ↔ text = reference name ∧ IsIdentifier name := by
  unfold placeholderName?
  refine ⟨?_, ?_⟩
  · intro h
    split at h
    · rename_i first rest htext
      split at h
      · rename_i hform
        rw [Bool.and_eq_true, List.all_eq_true] at hform
        have hname : name.toList = first :: rest := by
          rw [← Option.some.inj h, String.toList_ofList]
        refine ⟨String.toList_inj.mp ?_, first, rest, hname, hform⟩
        rw [toList_reference, htext, hname]
      · simp at h
    · simp at h
  · intro h
    obtain ⟨rfl, first, rest, hname, hstart, hrest⟩ := h
    rw [toList_reference, hname]
    simp only [hstart, List.all_eq_true.mpr hrest, Bool.and_self, if_true]
    rw [← hname, String.ofList_toList]

/-! ### Strings of a value -/

namespace Json

mutual

/-- The strings of a value, from left to right. -/
def strings : Json → List String
  | .string s => [s]
  | .array items => stringsOfItems items
  | .object members => stringsOfMembers members
  | .null => []
  | .boolean _ => []
  | .number _ => []

/-- The strings of a list of values. -/
def stringsOfItems : List Json → List String
  | [] => []
  | v :: rest => strings v ++ stringsOfItems rest

/-- The strings of the values of members. -/
def stringsOfMembers : List (String × Json) → List String
  | [] => []
  | (_, v) :: rest => strings v ++ stringsOfMembers rest

end

/-- Adds the name that a text refers to, unless it is there. -/
def addName (names : List String) (text : String) : List String :=
  match placeholderName? text with
  | some name => if names.contains name then names else names ++ [name]
  | none => names

mutual

/-- **The scan of a value is a scan of its strings.** -/
theorem placeholders_eq (names : List String) : (v : Json) →
    placeholders names v = v.strings.foldl addName names
  | .string _ => rfl
  | .array items => by
      rw [placeholders, strings]
      exact placeholdersOfItems_eq names items
  | .object members => by
      rw [placeholders, strings]
      exact placeholdersOfMembers_eq names members
  | .null => by rw [placeholders, strings, List.foldl_nil]
  | .boolean _ => by rw [placeholders, strings, List.foldl_nil]
  | .number _ => by rw [placeholders, strings, List.foldl_nil]

theorem placeholdersOfItems_eq (names : List String) : (items : List Json) →
    placeholdersOfItems names items = (stringsOfItems items).foldl addName names
  | [] => by rw [placeholdersOfItems, stringsOfItems, List.foldl_nil]
  | v :: rest => by
      rw [placeholdersOfItems, stringsOfItems, List.foldl_append, ← placeholders_eq names v]
      exact placeholdersOfItems_eq _ rest

theorem placeholdersOfMembers_eq (names : List String) : (members : List (String × Json)) →
    placeholdersOfMembers names members = (stringsOfMembers members).foldl addName names
  | [] => by rw [placeholdersOfMembers, stringsOfMembers, List.foldl_nil]
  | (_, v) :: rest => by
      rw [placeholdersOfMembers, stringsOfMembers, List.foldl_append, ← placeholders_eq names v]
      exact placeholdersOfMembers_eq _ rest

end

/-- A text adds its name to the names there are, each in its first place. -/
theorem addName_eraseDups (names : List String) (text : String) :
    addName names.eraseDups text = (names ++ (placeholderName? text).toList).eraseDups := by
  unfold addName
  cases placeholderName? text with
  | none => rw [Option.toList_none, List.append_nil]
  | some name =>
      rw [Option.toList_some]
      exact add_eraseDups names name

/-- A scan finds the names that the texts refer to, each in its first place. -/
theorem foldl_addName_eraseDups : ∀ texts names : List String,
    texts.foldl addName names.eraseDups
      = (names ++ texts.filterMap placeholderName?).eraseDups := by
  intro texts
  induction texts with
  | nil => intro names; simp
  | cons text rest ih =>
      intro names
      rw [List.foldl_cons, addName_eraseDups, ih, List.append_assoc, List.filterMap_cons]
      cases placeholderName? text <;> rfl

theorem foldl_addName (texts : List String) :
    texts.foldl addName [] = (texts.filterMap placeholderName?).eraseDups :=
  foldl_addName_eraseDups texts []

end Json

/-! ### Names of a function -/

/-- The strings in which a function may refer to names: those of its rendered action, but for a
scenario launch only those of the arguments. -/
def Document.Function.texts (f : Document.Function) : List String :=
  match f.action with
  | .startScenario _ arguments => Json.stringsOfMembers arguments
  | action => action.toJson.strings

theorem Document.Function.names_eq (f : Document.Function) :
    f.names = (f.texts.filterMap placeholderName?).eraseDups := by
  rw [← Json.foldl_addName]
  unfold names texts
  cases f.action with
  | startScenario _ arguments => exact Json.placeholdersOfMembers_eq [] arguments
  | _ => exact Json.placeholders_eq [] _

/-- **The names of a function are those that its strings refer to.** -/
theorem Document.Function.mem_names_iff {f : Document.Function} {name : String} :
    name ∈ f.names ↔ reference name ∈ f.texts ∧ IsIdentifier name := by
  rw [names_eq, List.mem_eraseDups, List.mem_filterMap]
  refine ⟨?_, ?_⟩
  · intro h
    obtain ⟨text, htext, hname⟩ := h
    obtain ⟨rfl, hid⟩ := placeholderName?_eq_some_iff.mp hname
    exact ⟨htext, hid⟩
  · intro h
    obtain ⟨htext, hid⟩ := h
    exact ⟨reference name, htext, placeholderName?_eq_some_iff.mpr ⟨rfl, hid⟩⟩

end Testbed

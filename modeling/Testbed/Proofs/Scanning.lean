/-
The scan of a value and the references of its token.

The names in a value are looked for twice.  A scenario takes the value for a token, collects
the references of that token and resolves it; a document is only scanned, and the scan keeps
each name once.  Both go through the strings of the value from left to right, so the scan
finds the references, each in its first place.  What is not declared stands in the same order
either way: resolving fails if the scan comes upon an undeclared name, and it fails with the
first one that the scan comes upon.
-/
import Testbed.Proofs.Missing
import Testbed.Proofs.Validation

namespace Testbed

open FirstPlaces

/-! ### References of a value -/

namespace Token

theorem leaves_parse (s : String) :
    (parse s).leaves = ((placeholderName? s).toList).map .placeholder := by
  rw [parse]
  cases placeholderName? s <;> rfl

mutual

/-- The references in the token of a value are placeholders, one for each string that is one. -/
theorem leaves_ofJson : (v : Json) →
    (ofJson v).leaves = (v.strings.filterMap placeholderName?).map .placeholder
  | .null => rfl
  | .boolean _ => rfl
  | .number _ => rfl
  | .string s => by
      rw [ofJson, leaves_parse, Json.strings, List.filterMap_cons]
      cases placeholderName? s <;> rfl
  | .array items => by
      rw [ofJson, leaves, Json.strings]
      exact leaves_ofItems items
  | .object members => by
      rw [ofJson, leaves, Json.strings]
      exact leaves_ofMembers members

theorem leaves_ofItems : (items : List Json) → leavesOfItems (ofItems items)
      = ((Json.stringsOfItems items).filterMap placeholderName?).map .placeholder
  | [] => rfl
  | v :: rest => by
      rw [ofItems, leavesOfItems, leaves_ofJson v, leaves_ofItems rest, Json.stringsOfItems,
        List.filterMap_append, List.map_append]

theorem leaves_ofMembers : (members : List (String × Json)) → leavesOfEntries (ofMembers members)
      = ((Json.stringsOfMembers members).filterMap placeholderName?).map .placeholder
  | [] => rfl
  | (_, v) :: rest => by
      rw [ofMembers, leavesOfEntries, leaves_ofJson v, leaves_ofMembers rest,
        Json.stringsOfMembers, List.filterMap_append, List.map_append]

end

/-- Placeholders refer to their own names. -/
theorem eq_of_refersTo_placeholders {names others : List String}
    (h : List.Forall₂ RefersTo (names.map .placeholder) others) : others = names := by
  rw [List.forall₂_map_left_iff] at h
  induction h with
  | nil => rfl
  | cons hname _ ih =>
      cases hname
      rw [ih]

/-- **The references of a value are those of its strings, in their order.** -/
theorem references_ofJson (v : Json) :
    (ofJson v).references = v.strings.filterMap placeholderName? :=
  eq_of_refersTo_placeholders (leaves_ofJson v ▸ refersTo_leaves (ofJson v))

end Token

/-- The scan of a value finds the references of its token, each in its first place. -/
theorem Json.placeholders_nil (v : Json) :
    v.placeholders [] = (Token.ofJson v).references.eraseDups := by
  rw [placeholders_eq, foldl_addName, Token.references_ofJson]

/-- A name that comes again is left out, and keys are not looked at. -/
example : Json.placeholders [] (.array [.string "$b", .object [("$c", .string "$a")],
    .string "$b", .string "$a $d"]) = ["b", "a"] :=
  rfl

/-! ### What is not declared -/

/-- Whether a name is declared, as an argument or as a constant. -/
def Declarations.declares (d : Declarations) (name : String) : Bool :=
  d.isArgument name || (d.constant? name).isSome

/-- What a document declares. -/
def Document.declarations (d : Document) : Declarations := ⟨Keyed.keys d.arguments, d.constants⟩

theorem Declarations.declares_iff {d : Declarations} {name : String} :
    d.declares name = true ↔ name ∈ d.arguments ∨ name ∈ Keyed.keys d.constants := by
  rw [declares, isArgument, constant?, Bool.or_eq_true, Keyed.get?_isSome_iff,
    List.contains_iff_mem]

/-- A document looks a name up in the same tables. -/
theorem Document.declares_eq (d : Document) (name : String) :
    d.declares name = d.declarations.declares name := by
  rw [Bool.eq_iff_iff, Document.declares_iff, Declarations.declares_iff]
  rfl

section Undeclared

variable {d : Declarations}

theorem Token.resolvable_placeholder_iff {name : String} :
    (placeholder name).Resolvable d.arguments (Keyed.keys d.constants)
      ↔ d.declares name = true := by
  rw [Declarations.declares_iff, or_comm]
  refine ⟨?_, .placeholder⟩
  intro h
  cases h with
  | placeholder known => exact known

theorem Token.missing_placeholder_iff {name other : String} :
    (placeholder name).Missing d.arguments (Keyed.keys d.constants) other
      ↔ name = other ∧ d.declares name = false := by
  rw [← Bool.not_eq_true, ← resolvable_placeholder_iff]
  refine ⟨?_, ?_⟩
  · intro h
    have hnot := h.not_resolvable
    cases h
    exact ⟨rfl, hnot⟩
  · intro h
    obtain ⟨rfl, hnot⟩ := h
    exact (RefersTo.placeholder name).missing hnot

/-- Of placeholders, the first one that is missing is the first name that is not declared. -/
theorem Declarations.firstMissing_placeholders_iff {names : List String} {name : String} :
    d.FirstMissing (names.map .placeholder) name
      ↔ names.find? (fun other => !d.declares other) = some name := by
  rw [List.find?_eq_some_iff_getElem, FirstMissing]
  refine ⟨?_, ?_⟩
  · intro h
    obtain ⟨k, leaf, hleaf, hmissing, hearlier⟩ := h
    rw [List.getElem?_map] at hleaf
    obtain ⟨other, hother, rfl⟩ := Option.map_eq_some_iff.mp hleaf
    obtain ⟨rfl, hundeclared⟩ := Token.missing_placeholder_iff.mp hmissing
    obtain ⟨hk, hname⟩ := List.getElem?_eq_some_iff.mp hother
    refine ⟨by rw [hundeclared]; rfl, k, hk, hname, fun j hj => ?_⟩
    have hdeclared := hearlier j hj (.placeholder names[j]) (by simp [Nat.lt_trans hj hk])
    rw [Token.resolvable_placeholder_iff.mp hdeclared]
    rfl
  · intro h
    obtain ⟨hundeclared, k, hk, rfl, hearlier⟩ := h
    refine ⟨k, .placeholder names[k], by simp [hk], ?_, fun j hj earlier hleaf => ?_⟩
    · exact Token.missing_placeholder_iff.mpr ⟨rfl, by simpa using hundeclared⟩
    · rw [List.getElem?_map] at hleaf
      obtain ⟨other, hother, rfl⟩ := Option.map_eq_some_iff.mp hleaf
      obtain ⟨_, rfl⟩ := List.getElem?_eq_some_iff.mp hother
      exact Token.resolvable_placeholder_iff.mpr (by simpa using hearlier j hj)

/-- Resolving the token of a value fails with the first name of the scan that is not declared. -/
theorem Token.resolve_ofJson_error_iff (v : Json) (name : String) :
    (ofJson v).resolve d = .error ⟨name⟩
      ↔ (v.placeholders []).find? (fun other => !d.declares other) = some name := by
  have hleaves := refersTo_leaves (ofJson v)
  rw [(finds_resolve d (ofJson v)).error_iff_firstMissing hleaves, leaves_ofJson,
    Declarations.firstMissing_placeholders_iff, Json.placeholders_nil, references_ofJson,
    find?_eraseDups]

end Undeclared

/--
**The scan of a value and the references of its token agree.**

The scan finds the references, each in its first place.  Resolving the token fails exactly if the
scan comes upon a name that is not declared, and then with the first such name.  What a document
declares is looked up in it as it would be in the tables of a scenario.
-/
theorem Json.scan_references (v : Json) :
    v.placeholders [] = (Token.ofJson v).references.eraseDups
      ∧ (∀ d : Declarations,
        ((∃ e, (Token.ofJson v).resolve d = .error e)
          ↔ ∃ name ∈ v.placeholders [], d.declares name = false)
        ∧ ∀ name, (Token.ofJson v).resolve d = .error ⟨name⟩
          ↔ (v.placeholders []).find? (fun other => !d.declares other) = some name)
      ∧ ∀ (doc : Document) (name : String), doc.declares name = doc.declarations.declares name := by
  have herror := fun d => Token.resolve_ofJson_error_iff (d := d) v
  refine ⟨v.placeholders_nil, fun d => ⟨⟨?_, ?_⟩, herror d⟩, Document.declares_eq⟩
  · intro h
    obtain ⟨⟨name⟩, h⟩ := h
    have hfound := (herror d name).mp h
    exact ⟨name, List.mem_of_find?_eq_some hfound, by simpa using List.find?_some hfound⟩
  · intro h
    obtain ⟨name, hname, hundeclared⟩ := h
    have hsome : ((v.placeholders []).find? fun other => !d.declares other).isSome = true :=
      List.find?_isSome.mpr ⟨name, hname, by rw [hundeclared]; rfl⟩
    obtain ⟨first, hfirst⟩ := Option.isSome_iff_exists.mp hsome
    exact ⟨⟨first⟩, (herror d first).mpr hfirst⟩

end Testbed

/-
What a schema demands once it is written.

Writing a schema puts each demand under its keyword, and leaves out those that are not made.
Judging the written form looks the keywords up again, so what it says of a value can be
read off the schema itself: `Demands` lists the demands one by one, and `admits_toJson_iff`
says that the written schema admits exactly the values that meet them.

Around a schema there may be members that are no keywords, such as a title or a catalogue.
They change nothing.
-/
import Testbed.Schema.Conformance
import Testbed.Proofs.Keyed

namespace Testbed.Schema

/-- A value meets the demands of a schema, when `judge` says what the schemas in it admit. -/
@[mk_iff]
structure Demands (judge : Json → Json → Bool) (s : Schema) (v : Json) : Prop where
  types : s.types = [] ∨ ∃ t ∈ s.types, isOfType v t.text = true
  allOf : ∀ t ∈ s.allOf, judge t.toJson v = true
  oneOf : s.oneOf = [] ∨ s.oneOf.countP (fun t => judge t.toJson v) = 1
  minimum : ∀ low, s.minimum = some low → ∀ n, v = .number n → n.atLeast low = true
  items : ∀ t, s.items = some t → ∀ x ∈ elements v, judge t.toJson x = true
  required : ∀ members, v = .object members → ∀ name ∈ s.required, name ∈ Keyed.keys members
  properties : ∀ property ∈ s.properties, ∀ x, Keyed.get? property.1 (fields v) = some x →
    judge property.2.toJson x = true
  additional : ∀ allowed, s.additional = some allowed → ∀ member ∈ fields v,
    member.1 ∈ Keyed.keys s.properties ∨ judge (.boolean allowed) member.2 = true

/-! ### The members of a written schema -/

theorem listToJson_eq (schemas : List Schema) : listToJson schemas = schemas.map toJson := by
  induction schemas with
  | nil => rfl
  | cons s rest ih => exact congrArg (s.toJson :: ·) ih

theorem propertiesToMembers_eq (properties : List (String × Schema)) :
    propertiesToMembers properties = properties.map (Prod.map id toJson) := by
  induction properties with
  | nil => rfl
  | cons property rest ih => exact congrArg ((property.1, property.2.toJson) :: ·) ih

theorem itemsToMembers_eq (s : Option Schema) :
    itemsToMembers s = place "items" (s.map toJson) := by
  cases s <;> rfl

/-- The members of a written schema, in their order. -/
theorem toMembers_eq (s : Schema) : s.toMembers
    = place "description" (s.description.map .string) ++ place "default" s.default
      ++ typeMember s.types ++ place "format" (s.format.map .string)
      ++ listPlace "allOf" (s.allOf.map toJson) ++ listPlace "oneOf" (s.oneOf.map toJson)
      ++ place "minimum" (s.minimum.map .number) ++ place "items" (s.items.map toJson)
      ++ listPlace "required" (s.required.map .string)
      ++ propertiesMember (s.properties.map (Prod.map id toJson))
      ++ place "additionalProperties" (s.additional.map .boolean)
      ++ place "$ref" (s.definition.map fun name => .string (definitionPath name)) := by
  rw [← listToJson_eq, ← listToJson_eq, ← propertiesToMembers_eq, ← itemsToMembers_eq]
  cases s
  rfl

theorem words_strings (texts : List String) : words (strings texts) = texts := by
  rw [strings, words, List.filterMap_map]
  exact List.filterMap_some

/-! ### What each keyword demands -/

section Keywords

variable (judge : Json → Json → Bool) (declared : Members) (v : Json)

theorem meets_type (demand : Json) :
    meets judge declared v "type" demand = (words demand).any (isOfType v) := rfl

theorem meets_allOf (schemas : List Json) :
    meets judge declared v "allOf" (.array schemas) = schemas.all (judge · v) := rfl

theorem meets_oneOf (schemas : List Json) :
    meets judge declared v "oneOf" (.array schemas) = (schemas.countP (judge · v) == 1) := rfl

theorem meets_minimum (low : Number) : meets judge declared v "minimum" (.number low) = true
    ↔ ∀ n, v = .number n → n.atLeast low = true := by
  cases v with
  | number n => exact ⟨fun h _ hn => Json.number.inj hn ▸ h, fun h => h n rfl⟩
  | _ => exact ⟨fun _ _ hn => (nomatch hn), fun _ => rfl⟩

theorem meets_items (demand : Json) :
    meets judge declared v "items" demand = (elements v).all (judge demand) := rfl

theorem meets_required (demand : Json) : meets judge declared v "required" demand = true
    ↔ ∀ members, v = .object members → ∀ name ∈ words demand, name ∈ Keyed.keys members := by
  cases v with
  | object members =>
      refine List.all_eq_true.trans ?_
      simp only [Keyed.has_iff, Json.object.injEq, forall_eq']
  | _ => exact ⟨fun _ _ hmembers => (nomatch hmembers), fun _ => rfl⟩

theorem meets_properties (properties : Members) :
    meets judge declared v "properties" (.object properties)
      = properties.all fun (name, schema) => (Keyed.get? name (fields v)).all (judge schema) := rfl

theorem meets_additional (demand : Json) :
    meets judge declared v "additionalProperties" demand
      = (fields v).all fun (key, x) => Keyed.has key declared || judge demand x := rfl

end Keywords

section Places

variable {judge : Json → Json → Bool} {declared : Members} {v : Json}

/-- The demands of some members. -/
def MeetsAll (judge : Json → Json → Bool) (declared : Members) (v : Json) (members : Members) :
    Prop := ∀ member ∈ members, meets judge declared v member.1 member.2 = true

theorem meetsAll_append {first second : Members} : MeetsAll judge declared v (first ++ second)
    ↔ MeetsAll judge declared v first ∧ MeetsAll judge declared v second :=
  List.forall_mem_append

theorem meetsAll_place {key : String} {value : Option Json} :
    MeetsAll judge declared v (place key value)
      ↔ ∀ demand, value = some demand → meets judge declared v key demand = true := by
  cases value <;> simp [MeetsAll, place]

theorem meetsAll_listPlace {key : String} {items : List Json} :
    MeetsAll judge declared v (listPlace key items)
      ↔ items = [] ∨ meets judge declared v key (.array items) = true := by
  cases items <;> simp [MeetsAll, listPlace]

/-- A keyword that only tells something demands nothing. -/
theorem meetsAll_silent (key : String)
    (h : ∀ demand, meets judge declared v key demand = true) (value : Option Json) :
    MeetsAll judge declared v (place key value) :=
  meetsAll_place.mpr fun demand _ => h demand

theorem meetsAll_typeMember {types : List JsonType} :
    MeetsAll judge declared v (typeMember types)
      ↔ types = [] ∨ ∃ t ∈ types, isOfType v t.text = true := by
  match types with
  | [] => simp [MeetsAll, typeMember]
  | [t] => simp [MeetsAll, typeMember, meets_type, words]
  | t :: t' :: rest =>
      simp only [MeetsAll, typeMember, meets_type, List.forall_mem_singleton, words_strings,
        List.any_map, List.any_eq_true]
      simp

theorem meetsAll_allOf {schemas : List Schema} :
    MeetsAll judge declared v (listPlace "allOf" (schemas.map toJson))
      ↔ ∀ t ∈ schemas, judge t.toJson v = true := by
  rw [meetsAll_listPlace, meets_allOf]
  simp only [List.all_map, List.all_eq_true, List.map_eq_nil_iff, Function.comp_apply]
  exact or_iff_right_of_imp fun hnil => by simp [hnil]

theorem meetsAll_oneOf {schemas : List Schema} :
    MeetsAll judge declared v (listPlace "oneOf" (schemas.map toJson))
      ↔ schemas = [] ∨ schemas.countP (fun t => judge t.toJson v) = 1 := by
  rw [meetsAll_listPlace, meets_oneOf, List.countP_map, beq_iff_eq, List.map_eq_nil_iff]
  rfl

theorem meetsAll_minimum {low : Option Number} :
    MeetsAll judge declared v (place "minimum" (low.map .number))
      ↔ ∀ l, low = some l → ∀ n, v = .number n → n.atLeast l = true := by
  rw [meetsAll_place]
  cases low with
  | none => simp
  | some l => simp [meets_minimum]

theorem meetsAll_items {s : Option Schema} :
    MeetsAll judge declared v (place "items" (s.map toJson))
      ↔ ∀ t, s = some t → ∀ x ∈ elements v, judge t.toJson x = true := by
  rw [meetsAll_place]
  cases s <;> simp [meets_items]

theorem meetsAll_required {names : List String} :
    MeetsAll judge declared v (listPlace "required" (names.map .string))
      ↔ ∀ members, v = .object members → ∀ name ∈ names, name ∈ Keyed.keys members := by
  have hwords : words (.array (names.map .string)) = names := words_strings names
  rw [meetsAll_listPlace, meets_required, hwords, List.map_eq_nil_iff]
  exact or_iff_right_of_imp fun hnil => by simp [hnil]

theorem meetsAll_properties {properties : List (String × Schema)} :
    MeetsAll judge declared v (propertiesMember (properties.map (Prod.map id toJson)))
      ↔ ∀ property ∈ properties, ∀ x, Keyed.get? property.1 (fields v) = some x →
        judge property.2.toJson x = true := by
  cases properties with
  | nil => simp [MeetsAll, propertiesMember]
  | cons property rest => simp [MeetsAll, propertiesMember, meets_properties, Option.all_eq_true]

theorem meetsAll_additional {allowed : Option Bool} :
    MeetsAll judge declared v (place "additionalProperties" (allowed.map .boolean))
      ↔ ∀ b, allowed = some b → ∀ member ∈ fields v,
        member.1 ∈ Keyed.keys declared ∨ judge (.boolean b) member.2 = true := by
  rw [meetsAll_place]
  cases allowed <;> simp [meets_additional, Keyed.has_iff]

end Places

/-! ### Looking keywords up -/

theorem all_place (key k : String) (value : Option Json) :
    Keyed.all key (place k value) = if k = key then value.toList else [] := by
  by_cases hk : k = key <;> cases value <;> simp [place, Keyed.all, hk]

theorem all_listPlace {key k : String} (h : k ≠ key) (items : List Json) :
    Keyed.all key (listPlace k items) = [] := by
  cases items <;> simp [listPlace, Keyed.all, h]

theorem all_typeMember {key : String} (h : "type" ≠ key) (types : List JsonType) :
    Keyed.all key (typeMember types) = [] := by
  match types with
  | [] => rfl
  | [t] => exact Keyed.all_cons_ne h _ []
  | t :: t' :: rest => exact Keyed.all_cons_ne h _ []

theorem all_properties {key : String} (h : "properties" ≠ key) (properties : Members) :
    Keyed.all key (propertiesMember properties) = [] := by
  cases properties with
  | nil => rfl
  | cons property rest => exact Keyed.all_cons_ne h _ []

/-- Under `$ref` there is the path of the definition, if the schema points at one. -/
theorem get?_reference (s : Schema) : Keyed.get? "$ref" s.toMembers
    = s.definition.map fun name => .string (definitionPath name) := by
  rw [← Keyed.head?_all, toMembers_eq]
  simp [Keyed.all_append, all_place, all_listPlace, all_typeMember, all_properties]

/-- The declared properties are those of the schema. -/
theorem declaredBy_toMembers (s : Schema) :
    declaredBy s.toMembers = s.properties.map (Prod.map id toJson) := by
  rw [declaredBy, ← Keyed.head?_all, toMembers_eq]
  simp only [Keyed.all_append, all_place, ne_eq, String.reduceEq, not_false_eq_true, if_false,
    all_listPlace, all_typeMember, List.nil_append, List.append_nil]
  cases s.properties <;> rfl

/-! ### Schemas and what is around them -/

variable {root : Json}

/-- **A written schema admits the values that meet its demands.** -/
theorem admits_toJson_iff {s : Schema} (h : s.definition = none) (depth : Nat) (v : Json) :
    admits root (depth + 1) s.toJson v = true ↔ s.Demands (admits root depth) v := by
  have hkeys : Keyed.keys (declaredBy s.toMembers) = Keyed.keys s.properties := by
    rw [declaredBy_toMembers, Keyed.keys_map]
  have hall : admits root (depth + 1) s.toJson v = true
      ↔ MeetsAll (admits root depth) (declaredBy s.toMembers) v s.toMembers := by
    rw [toJson, admits, get?_reference, h]
    exact List.all_eq_true
  rw [hall, demands_iff]
  generalize declaredBy s.toMembers = declared at hkeys ⊢
  rw [toMembers_eq]
  simp only [meetsAll_append, iff_true_intro (meetsAll_silent "description" (fun _ => rfl) _),
    iff_true_intro (meetsAll_silent "default" (fun _ => rfl) _),
    iff_true_intro (meetsAll_silent "format" (fun _ => rfl) _),
    iff_true_intro (meetsAll_silent "$ref" (fun _ => rfl) _), meetsAll_typeMember,
    meetsAll_allOf, meetsAll_oneOf, meetsAll_minimum, meetsAll_items, meetsAll_required,
    meetsAll_properties, meetsAll_additional, hkeys, true_and, and_true, and_assoc]

/-- A schema that points at a definition demands what the definition does. -/
theorem admits_definition {name : String} {target : Json}
    (h : target? root (.string (definitionPath name)) = some target) (depth : Nat) (v : Json) :
    admits root (depth + 1) (toJson { definition := some name }) v = admits root depth target v := by
  rw [toJson, admits, get?_reference]
  simp only [Option.map_some, h]

theorem admits_boolean (depth : Nat) (b : Bool) (v : Json) :
    admits root depth (.boolean b) v = b := by
  cases depth <;> rfl

/-- The keywords that say something of a value. -/
def demanding : List String :=
  ["$ref", "type", "allOf", "oneOf", "minimum", "items", "required", "properties",
    "additionalProperties"]

theorem meets_of_notMem {keyword : String} (h : keyword ∉ demanding)
    (judge : Json → Json → Bool) (declared : Members) (v demand : Json) :
    meets judge declared v keyword demand = true := by
  unfold meets
  split <;> first | rfl | exact absurd (by decide) h

theorem get?_around {key : String} {before after : Members} (members : Members)
    (hbefore : key ∉ Keyed.keys before) (hafter : key ∉ Keyed.keys after) :
    Keyed.get? key (before ++ members ++ after) = Keyed.get? key members := by
  have hnone : ∀ {others : Members}, key ∉ Keyed.keys others → Keyed.all key others = [] := by
    intro others hothers
    rw [← List.head?_eq_none_iff, Keyed.head?_all, Keyed.get?_eq_none_iff.mpr hothers]
  rw [← Keyed.head?_all, Keyed.all_append, Keyed.all_append, hnone hbefore, hnone hafter,
    List.nil_append, List.append_nil, Keyed.head?_all]

/-- Members that are no keywords change nothing around a schema. -/
theorem admits_around {before after : Members}
    (hbefore : ∀ key ∈ demanding, key ∉ Keyed.keys before)
    (hafter : ∀ key ∈ demanding, key ∉ Keyed.keys after) (members : Members) (depth : Nat)
    (v : Json) : admits root depth (.object (before ++ members ++ after)) v
      = admits root depth (.object members) v := by
  have hfree : ∀ {others : Members}, (∀ key ∈ demanding, key ∉ Keyed.keys others) →
      ∀ judge declared, (others.all fun (keyword, demand) =>
        meets judge declared v keyword demand) = true := by
    intro others hothers judge declared
    rw [List.all_eq_true]
    intro member hmember
    exact meets_of_notMem (fun hkey => hothers _ hkey (Keyed.mem_keys_of_mem hmember)) ..
  have hget : ∀ key ∈ demanding,
      Keyed.get? key (before ++ members ++ after) = Keyed.get? key members :=
    fun key hkey => get?_around members (hbefore key hkey) (hafter key hkey)
  cases depth with
  | zero => rfl
  | succ depth =>
      rw [admits, admits, hget "$ref" (by decide), declaredBy, declaredBy,
        hget "properties" (by decide)]
      simp only [List.all_append, hfree hbefore, hfree hafter, Bool.true_and, Bool.and_true]

end Testbed.Schema

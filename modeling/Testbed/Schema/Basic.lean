/-
Schemas: what JSON values may look like.

A schema is a list of demands, all of them optional; a value conforms if it meets every
one that is made.  Only the demands that the schema of documents makes are here.
-/
import Testbed.Json.Basic

namespace Testbed

/-- The types of JSON values that schemas tell apart. -/
inductive JsonType where
  | null
  | object
  | array
  | string
  | number
  | integer
deriving DecidableEq

/-- The word for a type. -/
def JsonType.text : JsonType → String
  | null => "null"
  | object => "object"
  | array => "array"
  | string => "string"
  | number => "number"
  | integer => "integer"

/-- A schema.  The first three places are told to readers and demand nothing. -/
structure Schema where
  description : Option String := none
  default : Option Json := none
  format : Option String := none
  /-- The types a value may have; none for any. -/
  types : List JsonType := []
  /-- Schemas that must all be met. -/
  allOf : List Schema := []
  /-- Schemas of which exactly one must be met; none for no demand. -/
  oneOf : List Schema := []
  minimum : Option Number := none
  /-- The schema of every item of an array. -/
  items : Option Schema := none
  required : List String := []
  properties : List (String × Schema) := []
  /-- Whether an object may have other keys than those of `properties`. -/
  additional : Option Bool := none
  /-- The name of a schema that is defined elsewhere and must be met. -/
  definition : Option String := none

namespace Schema

/-- A list of words as a value. -/
def strings (texts : List String) : Json := .array (texts.map .string)

/-- A place that is written only if it is there. -/
def place (key : String) (value : Option Json) : Members :=
  match value with
  | some v => [(key, v)]
  | none => []

/-- A list that is written only if it is not empty. -/
def listPlace (key : String) (items : List Json) : Members :=
  if items.isEmpty then [] else [(key, .array items)]

/-- The types of a schema: one alone stands for itself. -/
def typeMember : List JsonType → Members
  | [] => []
  | [t] => [("type", .string t.text)]
  | ts => [("type", strings (ts.map JsonType.text))]

/-- The path at which a definition stands. -/
def definitionPath (name : String) : String := "#/definitions/" ++ name

mutual

/-- The members of a written schema, in their fixed order. -/
def toMembers : Schema → Members
  | ⟨description, default, format, types, allOf, oneOf, minimum, items, required, properties,
      additional, definition⟩ =>
    place "description" (description.map .string)
      ++ place "default" default
      ++ typeMember types
      ++ place "format" (format.map .string)
      ++ listPlace "allOf" (listToJson allOf)
      ++ listPlace "oneOf" (listToJson oneOf)
      ++ place "minimum" (minimum.map .number)
      ++ itemsToMembers items
      ++ listPlace "required" (required.map .string)
      ++ propertiesMember (propertiesToMembers properties)
      ++ place "additionalProperties" (additional.map .boolean)
      ++ place "$ref" (definition.map fun name => .string (definitionPath name))

/-- Written schemas in a list. -/
def listToJson : List Schema → List Json
  | [] => []
  | s :: rest => .object (toMembers s) :: listToJson rest

/-- The schema of the items, if there is one. -/
def itemsToMembers : Option Schema → Members
  | some s => [("items", .object (toMembers s))]
  | none => []

/-- Written schemas under the names of properties. -/
def propertiesToMembers : List (String × Schema) → Members
  | [] => []
  | (name, s) :: rest => (name, .object (toMembers s)) :: propertiesToMembers rest

/-- The properties, if there are any. -/
def propertiesMember (properties : Members) : Members :=
  if properties.isEmpty then [] else [("properties", .object properties)]

end

/-- A schema as it is written. -/
def toJson (s : Schema) : Json := .object s.toMembers

end Schema

end Testbed

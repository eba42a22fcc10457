/-
What a written schema demands of a value.

A written schema is an object of keywords.  Each keyword makes a demand, and a value is
admitted if it meets all of them; keywords that only tell something to readers demand
nothing.  A schema that points at a definition demands what the definition does, and
nothing else.  `true` stands for the schema that admits everything, and `false` for the
one that admits nothing.

Definitions may point at one another without end, so a value is judged to a depth, and
what counts is the verdict from some depth on.  The keywords are those that the schema of
documents uses, with the meaning that draft 7 of the language gives them.
-/
import Testbed.Schema.Basic
import Testbed.Json.Pointer

namespace Testbed

namespace Number

/-- The value of a number as a ratio, the denominator positive. -/
def ratio : Number → Int × Nat
  | integer n => (n, 1)
  | float x => (if x.negative then -x.numerator else x.numerator, x.denominator)

/-- Whether a number has no fraction, however it is written. -/
def isWhole (n : Number) : Bool := n.ratio.1 % n.ratio.2 == 0

/-- Whether a number is not below another one, compared as ratios. -/
def atLeast (n low : Number) : Bool := low.ratio.1 * n.ratio.2 ≤ n.ratio.1 * low.ratio.2

end Number

namespace Schema

/-- Whether a value is of the type that a word names. -/
def isOfType (v : Json) (word : String) : Bool :=
  match v with
  | .null => word == "null"
  | .boolean _ => word == "boolean"
  | .number n => word == "number" || (word == "integer" && n.isWhole)
  | .string _ => word == "string"
  | .array _ => word == "array"
  | .object _ => word == "object"

/-- The items of an array. -/
def elements : Json → List Json
  | .array items => items
  | _ => []

/-- The members of an object. -/
def fields : Json → Members
  | .object members => members
  | _ => []

/-- One word, or the words of a list. -/
def words : Json → List String
  | .string word => [word]
  | .array items => items.filterMap fun
    | .string word => some word
    | _ => none
  | _ => []

/-- Whether a value meets the demand of one keyword.  `judge` says what a schema inside the
demand admits, `declared` are the properties that the schema around it declares. -/
def meets (judge : Json → Json → Bool) (declared : Members) (v : Json) (keyword : String)
    (demand : Json) : Bool :=
  match keyword with
  | "type" => (words demand).any (isOfType v)
  | "allOf" => (elements demand).all (judge · v)
  | "oneOf" => (elements demand).countP (judge · v) == 1
  | "minimum" =>
    match demand, v with
    | .number low, .number n => n.atLeast low
    | _, _ => true
  | "items" => (elements v).all (judge demand)
  | "required" =>
    match v with
    | .object members => (words demand).all (Keyed.has · members)
    | _ => true
  | "properties" =>
    (fields demand).all fun (name, schema) => (Keyed.get? name (fields v)).all (judge schema)
  | "additionalProperties" =>
    (fields v).all fun (key, x) => Keyed.has key declared || judge demand x
  | _ => true

/-- The properties that the keywords of a schema declare. -/
def declaredBy (keywords : Members) : Members :=
  match Keyed.get? "properties" keywords with
  | some properties => fields properties
  | none => []

/-- The part of a whole schema that a reference such as `#/definitions/name` points at. -/
def target? (root reference : Json) : Option Json :=
  match reference with
  | .string path =>
    match path.toList with
    | '#' :: pointer => root.pointer? (String.ofList pointer)
    | _ => none
  | _ => none

/-- Whether a part of a whole schema admits a value, judged to a depth. -/
def admits (root : Json) : (depth : Nat) → (schema v : Json) → Bool
  | _, .boolean b, _ => b
  | depth + 1, .object keywords, v =>
    match Keyed.get? "$ref" keywords with
    | some reference =>
      match target? root reference with
      | some schema => admits root depth schema v
      | none => false
    | none =>
      keywords.all fun (keyword, demand) =>
        meets (admits root depth) (declaredBy keywords) v keyword demand
  | _, _, _ => false

/-- A value conforms to a whole schema. -/
def Conforms (root v : Json) : Prop :=
  ∃ enough, ∀ depth, enough ≤ depth → admits root depth root v = true

end Schema

end Testbed

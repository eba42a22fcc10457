/-
JSON values.

An object is the list of its members in the order in which they were first written.
Reading may leave a key twice in that list; `collapse` is what such an object means:
a repeated key keeps its first place and takes its last value.  Objects are equal
when they have the same members in any order.
-/
import Testbed.Json.Number

namespace Testbed

/-- A JSON value. -/
inductive Json where
  | null
  | boolean (value : Bool)
  | number (value : Number)
  | string (text : String)
  | array (items : List Json)
  | object (members : List (String × Json))
deriving Inhabited

/-- The members of an object, in order. -/
abbrev Members := List (String × Json)

namespace Json

/-- A natural number as a value. -/
def ofNat (n : Nat) : Json := .number (.integer n)

/-- A list of natural numbers as a value. -/
def ofNats (ns : List Nat) : Json := .array (ns.map ofNat)

end Json

/-! ### Keyed lists

Argument tables, constant tables and objects are all lists of pairs with at most one
pair a key. -/

namespace Keyed

variable {α : Type}

/-- The value under a key: that of the first pair with this key. -/
def get? (key : String) : List (String × α) → Option α
  | [] => none
  | (k, v) :: rest => if k = key then some v else get? key rest

/-- Whether a key is present. -/
def has (key : String) (entries : List (String × α)) : Bool := (get? key entries).isSome

/-- Sets a key: in its place if it is there, else at the end. -/
def insert (key : String) (value : α) : List (String × α) → List (String × α)
  | [] => [(key, value)]
  | (k, v) :: rest => if k = key then (k, value) :: rest else (k, v) :: insert key value rest

/-- The table that a sequence of settings leaves behind. -/
def ofList (entries : List (String × α)) : List (String × α) :=
  entries.foldl (fun table entry => insert entry.1 entry.2 table) []

/-- The keys, in order. -/
def keys (entries : List (String × α)) : List String := entries.map Prod.fst

end Keyed

namespace Json

/-! ### Collapsing repeated keys -/

mutual

/-- The value in which every object has each key once. -/
def collapse : Json → Json
  | .array items => .array (collapseItems items)
  | .object members => .object (Keyed.ofList (collapseMembers members))
  | .null => .null
  | .boolean b => .boolean b
  | .number n => .number n
  | .string s => .string s

/-- The items of an array, each collapsed. -/
def collapseItems : List Json → List Json
  | [] => []
  | v :: rest => collapse v :: collapseItems rest

/-- The members of an object, with their values collapsed and every key kept. -/
def collapseMembers : List (String × Json) → List (String × Json)
  | [] => []
  | (k, v) :: rest => (k, collapse v) :: collapseMembers rest

end

/-! ### Equality -/

mutual

/-- Equality of values, for which the order of members does not count. -/
def same : Json → Json → Bool
  | .null, .null => true
  | .boolean a, .boolean b => a == b
  | .number a, .number b => a.same b
  | .string a, .string b => a == b
  | .array a, .array b => sameItems a b
  | .object a, .object b => a.length == b.length && sameMembers a b
  | _, _ => false

/-- Equality of lists of values, place by place. -/
def sameItems : List Json → List Json → Bool
  | [], [] => true
  | a :: as, b :: bs => same a b && sameItems as bs
  | _, _ => false

/-- Whether every member of the first list has an equal one under its key in the second. -/
def sameMembers : List (String × Json) → List (String × Json) → Bool
  | [], _ => true
  | (k, v) :: rest, other =>
    (match Keyed.get? k other with
      | some w => same v w
      | none => false) && sameMembers rest other

end

/-- Equality of the objects that two tables stand for. -/
def sameObject (a b : Members) : Bool := a.length == b.length && sameMembers a b

end Json

end Testbed

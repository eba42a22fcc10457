/-
Reading the same thing from a value and from a text.

A `Codec` knows both ways.  From a value, everything is there at once; from a text, what
does not fit is refused where it begins, before the rest of the text is looked at, and
what nobody wants is passed over.  The number given to `read` says how many more
brackets may be opened.
-/
import Testbed.Json.Skip

namespace Testbed.Json

/-- How to read an `α`. -/
structure Codec (α : Type) where
  ofJson : Json → Except Fault α
  read : Nat → Reader α

namespace Codec

variable {α β : Type}

/-- Applies a function to what is read. -/
def map (f : α → β) (c : Codec α) : Codec β where
  ofJson v := (c.ofJson v).map f
  read limit := do return f (← c.read limit)

/-- What can be decided from the beginning of a value. -/
def ofGlimpse (decide : Glimpse → Except Fault α) : Codec α where
  ofJson v := decide v.glimpse
  read _ := do Reader.ofExcept (decide (← Reader.glimpse))

/-- A string, if that is what is seen. -/
def stringOf : Glimpse → Except Fault String
  | .string s => .ok s
  | other => .error (.wrongShape other .string)

/-- A natural number, if that is what is seen. -/
def indexOf : Glimpse → Except Fault Nat
  | .number (.integer (.ofNat n)) => .ok n
  | .number (.integer n) => .error (.negativeIndex n)
  | other => .error (.wrongShape other .index)

/-- A number, if that is what is seen. -/
def numberOf : Glimpse → Except Fault Number
  | .number n => .ok n
  | other => .error (.wrongShape other .number)

/-- Any string. -/
def string : Codec String := ofGlimpse stringOf

/-- The number of a function, without a sign and without a fraction. -/
def index : Codec Nat := ofGlimpse indexOf

/-- Any number, kept as it is written. -/
def number : Codec Number := ofGlimpse numberOf

/-- A number, or null for none. -/
def number? : Codec (Option Number) :=
  ofGlimpse fun
    | .null => .ok none
    | other => (numberOf other).map some

/-- Any value, with its repeated keys kept. -/
def raw : Codec Json where
  ofJson v := .ok v
  read := Reader.value

/-- Any value. -/
def any : Codec Json := raw.map collapse

/-- Opens the bracket that comes next. -/
def bracketed (limit : Nat) (inside : Nat → Reader α) : Reader α :=
  match limit with
  | 0 => Reader.defect .tooDeep
  | limit + 1 => do
    let _ ← Reader.next
    inside limit

/-- The members of an object. -/
def members : Codec Members where
  ofJson
    | .object members => .ok (Keyed.ofList (collapseMembers members))
    | other => .error (.wrongShape other.glimpse .map)
  read limit := do
    match ← Reader.glimpse with
    | .map =>
      bracketed limit fun limit => do
        let found ← Reader.entries .curly
          (fun found => do
            let name ← Reader.key fun _ => .ok ()
            return (name, ← any.read limit) :: found) []
        return Keyed.ofList found.reverse
    | other => Reader.fail (.wrongShape other .map)

/-- The items of an array. -/
def list (c : Codec α) : Codec (List α) where
  ofJson
    | .array items => items.mapM c.ofJson
    | other => .error (.wrongShape other.glimpse .sequence)
  read limit := do
    match ← Reader.glimpse with
    | .sequence =>
      bracketed limit fun limit => do
        let found ← Reader.entries .square
          (fun found => do return (← c.read limit) :: found) []
        return found.reverse
    | other => Reader.fail (.wrongShape other .sequence)

end Codec

end Testbed.Json

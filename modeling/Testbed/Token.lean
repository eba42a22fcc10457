/-
Payload values and the names they refer to.

A value in a payload is plain JSON or a reference to a declared name.  Constants are
put in when a scenario is built; arguments are left to the launch and show up in the
built document as `$name`.  A string of exactly that form is a placeholder, whose
table is decided only when it is resolved; a dollar sign anywhere else is plain text.
-/
import Testbed.Json.Basic

namespace Testbed

/-- A payload value. -/
inductive Token where
  /-- Plain JSON, never taken for a reference. -/
  | literal (value : Json)
  /-- A constant if one of this name is declared, otherwise an argument. -/
  | placeholder (name : String)
  /-- A reference to a constant. -/
  | constant (name : String)
  /-- A reference to an argument. -/
  | argument (name : String)
  | list (items : List Token)
  /-- Keyed tokens, in order; keys may repeat. -/
  | map (entries : List (String × Token))
deriving Inhabited

/-! ### The form of a placeholder -/

/-- Whether a character may begin a name. -/
def isNameStart (c : Char) : Bool := c.isAlpha || c == '_'

/-- Whether a character may stand in a name. -/
def isNameChar (c : Char) : Bool := c.isAlphanum || c == '_'

/-- The name in a text of the exact form `$name`. -/
def placeholderName? (text : String) : Option String :=
  match text.toList with
  | '$' :: first :: rest =>
    if isNameStart first && rest.all isNameChar then some (String.ofList (first :: rest)) else none
  | _ => none

/-- How a reference to an argument is written. -/
def reference (name : String) : String := "$" ++ name

/-! ### Declarations -/

/-- The names that tokens may refer to. -/
structure Declarations where
  arguments : List String
  constants : Members

namespace Declarations

/-- Nothing is declared. -/
def empty : Declarations := ⟨[], []⟩

/-- Declares arguments in order and then constants in order; of two constants of one name
the later one counts. -/
def ofLists (arguments : List String) (constants : Members) : Declarations :=
  ⟨arguments, Keyed.ofList constants⟩

/-- Whether a name is that of an argument. -/
def isArgument (d : Declarations) (name : String) : Bool := d.arguments.contains name

/-- The value of the constant of a name. -/
def constant? (d : Declarations) (name : String) : Option Json := Keyed.get? name d.constants

end Declarations

/-- A reference to a name that is not declared where the token looks for it. -/
structure UnknownName where
  name : String
deriving DecidableEq

/-- The message for a name that is not declared. -/
def UnknownName.message (e : UnknownName) : String :=
  "unknown reference '" ++ reference e.name ++ "'"

namespace Token

/-- A string as a token: a placeholder if it has the form of one. -/
def parse (text : String) : Token :=
  match placeholderName? text with
  | some name => .placeholder name
  | none => .literal (.string text)

mutual

/-- A JSON value as a token: its strings may be placeholders, its keys never are. -/
def ofJson : Json → Token
  | .string s => parse s
  | .array items => .list (ofItems items)
  | .object members => .map (ofMembers members)
  | .null => .literal .null
  | .boolean b => .literal (.boolean b)
  | .number n => .literal (.number n)

/-- The items of an array as tokens. -/
def ofItems : List Json → List Token
  | [] => []
  | v :: rest => ofJson v :: ofItems rest

/-- The values of members as tokens. -/
def ofMembers : List (String × Json) → List (String × Token)
  | [] => []
  | (k, v) :: rest => (k, ofJson v) :: ofMembers rest

end

/-! ### References -/

mutual

/-- The names a token refers to, from left to right. -/
def references : Token → List String
  | .literal _ => []
  | .placeholder name => [name]
  | .constant name => [name]
  | .argument name => [name]
  | .list items => referencesOfItems items
  | .map entries => referencesOfEntries entries

/-- The names in a list of tokens. -/
def referencesOfItems : List Token → List String
  | [] => []
  | t :: rest => references t ++ referencesOfItems rest

/-- The names in keyed tokens; keys are not looked at. -/
def referencesOfEntries : List (String × Token) → List String
  | [] => []
  | (_, t) :: rest => references t ++ referencesOfEntries rest

end

/-! ### Resolution -/

/-- The value that a reference to a constant stands for. -/
def resolveConstant (d : Declarations) (name : String) : Except UnknownName Json :=
  match d.constant? name with
  | some value => .ok value
  | none => .error ⟨name⟩

/-- The text that a reference to an argument is left as. -/
def resolveArgument (d : Declarations) (name : String) : Except UnknownName Json :=
  if d.isArgument name then .ok (.string (reference name)) else .error ⟨name⟩

mutual

/-- The JSON value of a token.  The first name that cannot be resolved ends it; repeated
keys of a map collapse. -/
def resolve (d : Declarations) : Token → Except UnknownName Json
  | .literal value => .ok value
  | .placeholder name =>
    match d.constant? name with
    | some value => .ok value
    | none => resolveArgument d name
  | .constant name => resolveConstant d name
  | .argument name => resolveArgument d name
  | .list items => do return .array (← resolveItems d items)
  | .map entries => do return .object (Keyed.ofList (← resolveEntries d entries))

/-- The values of tokens, in order. -/
def resolveItems (d : Declarations) : List Token → Except UnknownName (List Json)
  | [] => .ok []
  | t :: rest => do
    let v ← resolve d t
    return v :: (← resolveItems d rest)

/-- The values of keyed tokens, in order and with repeated keys kept. -/
def resolveEntries (d : Declarations) :
    List (String × Token) → Except UnknownName (List (String × Json))
  | [] => .ok []
  | (k, t) :: rest => do
    let v ← resolve d t
    return (k, v) :: (← resolveEntries d rest)

end

/-! ### Equality -/

mutual

/-- Equality of tokens.  Literals are equal as JSON values; the entries of a map count in
their order. -/
def same : Token → Token → Bool
  | .literal a, .literal b => a.same b
  | .placeholder a, .placeholder b => a == b
  | .constant a, .constant b => a == b
  | .argument a, .argument b => a == b
  | .list a, .list b => sameItems a b
  | .map a, .map b => sameEntries a b
  | _, _ => false

/-- Equality of lists of tokens, place by place. -/
def sameItems : List Token → List Token → Bool
  | [], [] => true
  | a :: as, b :: bs => same a b && sameItems as bs
  | _, _ => false

/-- Equality of keyed tokens, place by place. -/
def sameEntries : List (String × Token) → List (String × Token) → Bool
  | [], [] => true
  | (k, a) :: as, (l, b) :: bs => k == l && same a b && sameEntries as bs
  | _, _ => false

end

end Token

end Testbed

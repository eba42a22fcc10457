/-
Why a text or a value cannot be read.

A `Defect` is a place where a text stops being JSON.  A `Fault` is any reason to
refuse: a defect of the text, or well-formed JSON of a shape that is not wanted.
`Fault.message` is the only place that words them.
-/
import Testbed.Json.Printer
import Testbed.Text.Quoted

namespace Testbed.Json

/-- The two kinds of brackets. -/
inductive Bracket where
  | square
  | curly
deriving DecidableEq

/-- The character that closes a bracket. -/
def Bracket.close : Bracket → Char
  | .square => ']'
  | .curly => '\x7d'

/-- A place where a text stops being JSON. -/
inductive Defect where
  /-- The text ends where a value should begin or go on. -/
  | endInValue
  /-- The text ends inside a string. -/
  | endInString
  /-- The text ends inside brackets, where a separator or a key should stand. -/
  | endIn (bracket : Bracket)
  | expectedValue
  | expectedWord
  | expectedColon
  | expectedSeparator (bracket : Bracket)
  | keyNotString
  | trailingComma
  | trailingCharacters
  | invalidNumber
  | numberOutOfRange
  | invalidEscape
  /-- The second half of a surrogate pair alone, or a first half followed by something else. -/
  | loneSurrogate
  /-- A first half of a surrogate pair that no escape follows. -/
  | halfPair
  | controlCharacter
  | tooDeep
deriving DecidableEq

/-- The wording of a defect. -/
def Defect.message : Defect → String
  | endInValue => "EOF while parsing a value"
  | endInString => "EOF while parsing a string"
  | endIn .square => "EOF while parsing a list"
  | endIn .curly => "EOF while parsing an object"
  | expectedValue => "expected value"
  | expectedWord => "expected ident"
  | expectedColon => "expected `:`"
  | expectedSeparator .square => "expected `,` or `]`"
  | expectedSeparator .curly => "expected `,` or `\x7d`"
  | keyNotString => "key must be a string"
  | trailingComma => "trailing comma"
  | trailingCharacters => "trailing characters"
  | invalidNumber => "invalid number"
  | numberOutOfRange => "number out of range"
  | invalidEscape => "invalid escape"
  | loneSurrogate => "lone leading surrogate in hex escape"
  | halfPair => "unexpected end of hex escape"
  | controlCharacter => "control character (\\u0000-\\u001F) found while parsing a string"
  | tooDeep => "recursion limit exceeded"

/-! ### Shapes -/

/-- What the beginning of a value shows: a scalar as a whole, of a container only that it
is one. -/
inductive Glimpse where
  | null
  | boolean (value : Bool)
  | number (value : Number)
  | string (text : String)
  | sequence
  | map
deriving DecidableEq

/-- What the beginning of a value shows. -/
def glimpse : Json → Glimpse
  | .null => .null
  | .boolean b => .boolean b
  | .number n => .number n
  | .string s => .string s
  | .array _ => .sequence
  | .object _ => .map

/-- What is wanted in a place. -/
inductive Shape where
  | string
  | index
  | number
  | sequence
  | map
  | record (name : String)
deriving DecidableEq

/-- The wording of a wanted shape. -/
def Shape.text : Shape → String
  | string => "a string"
  | index => "usize"
  | number => "a JSON number"
  | sequence => "a sequence"
  | map => "a map"
  | record name => "struct " ++ name

/-- Why a text or a value cannot be read. -/
inductive Fault where
  | malformed (defect : Defect)
  | wrongShape (found : Glimpse) (wanted : Shape)
  | negativeIndex (found : Int)
  | missingField (name : String)
  | duplicateField (name : String)
  /-- A record written as an array that ends before a field it needs. -/
  | tooShort (found : Nat) (record : String) (fields : Nat)
  /-- A record written as an array with more items than fields. -/
  | tooLong (found : Nat) (fields : Nat)
  /-- The same, where the number of fields is not told. -/
  | surplus (found : Nat)
  /-- A function without a key that is an operation kind. -/
  | noKind
deriving DecidableEq

/-! ### Wording -/

/-- The wording of what was found. -/
def Glimpse.text : Glimpse → String
  | null => "null"
  | boolean b => "boolean `" ++ (if b then "true" else "false") ++ "`"
  | number (.integer n) => "integer `" ++ toString n ++ "`"
  | number (.float x) => "floating point `" ++ String.ofList (Number.floatText x) ++ "`"
  | string s => "string " ++ Text.quoted s
  | sequence => "sequence"
  | map => "map"

/-- A count of elements. -/
def elements (n : Nat) : String :=
  toString n ++ (if n = 1 then " element" else " elements")

/-- The wording of a fault. -/
def Fault.message : Fault → String
  | malformed d => d.message
  | wrongShape found wanted => "invalid type: " ++ found.text ++ ", expected " ++ wanted.text
  | negativeIndex n =>
    "invalid value: integer `" ++ toString n ++ "`, expected " ++ Shape.index.text
  | missingField name => "missing field `" ++ name ++ "`"
  | duplicateField name => "duplicate field `" ++ name ++ "`"
  | tooShort found record fields =>
    "invalid length " ++ toString found ++ ", expected " ++ (Shape.record record).text ++ " with "
      ++ elements fields
  | tooLong found fields =>
    "invalid length " ++ toString found ++ ", expected " ++ elements fields ++ " in sequence"
  | surplus found =>
    "invalid length " ++ toString found ++ ", expected fewer elements in array"
  | noKind => "no variant of enum ActionDocument found in flattened data"

end Testbed.Json

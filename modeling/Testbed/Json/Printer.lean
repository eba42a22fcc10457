/-
JSON text.

One printer serves both layouts: a style says what stands between the parts of a
value, and everything else is the same.  The compact style puts nothing there, the
indented one a line for each item.
-/
import Testbed.Json.Basic

namespace Testbed.Json

/-- What is written between the parts of a value. -/
structure Style where
  /-- In front of each item and each closing bracket, at the given depth. -/
  separator : Nat → String
  /-- Between a key and its value. -/
  colon : String

/-- No blanks. -/
def Style.compact : Style := ⟨fun _ => "", ":"⟩

/-- Two blanks a level, one item a line. -/
def Style.indented : Style :=
  ⟨fun depth => String.ofList ('\n' :: List.replicate (2 * depth) ' '), ": "⟩

/-- The style that a `pretty` setting asks for. -/
def Style.ofPretty (pretty : Bool) : Style := if pretty then indented else compact

/-! ### Strings -/

/-- A hexadecimal digit, in lower case. -/
def hexDigit (n : Nat) : Char := if n < 10 then Char.ofNat (48 + n) else Char.ofNat (87 + n)

/-- The written form of one character: a quote, a backslash and the control characters
are escaped, everything else stands for itself. -/
def escape (c : Char) : List Char :=
  if c = '"' then ['\\', '"']
  else if c = '\\' then ['\\', '\\']
  else if c = '\x08' then ['\\', 'b']
  else if c = '\x0c' then ['\\', 'f']
  else if c = '\n' then ['\\', 'n']
  else if c = '\r' then ['\\', 'r']
  else if c = '\t' then ['\\', 't']
  else if c.toNat < 32 then ['\\', 'u', '0', '0', hexDigit (c.toNat / 16), hexDigit (c.toNat % 16)]
  else [c]

/-- A string in quotes. -/
def quote (s : String) : String :=
  String.ofList ('"' :: s.toList.flatMap escape ++ ['"'])

/-! ### Values -/

mutual

/-- The text of a value at the given depth. -/
def print (style : Style) (depth : Nat) : Json → String
  | .null => "null"
  | .boolean true => "true"
  | .boolean false => "false"
  | .number n => String.ofList n.text
  | .string s => quote s
  | .array [] => "[]"
  | .array (v :: rest) =>
    "[" ++ style.separator (depth + 1) ++ print style (depth + 1) v
      ++ printItems style (depth + 1) rest ++ style.separator depth ++ "]"
  | .object [] => "\x7b\x7d"
  | .object ((k, v) :: rest) =>
    "\x7b" ++ style.separator (depth + 1) ++ quote k ++ style.colon ++ print style (depth + 1) v
      ++ printMembers style (depth + 1) rest ++ style.separator depth ++ "\x7d"

/-- The items after the first one. -/
def printItems (style : Style) (depth : Nat) : List Json → String
  | [] => ""
  | v :: rest => "," ++ style.separator depth ++ print style depth v ++ printItems style depth rest

/-- The members after the first one. -/
def printMembers (style : Style) (depth : Nat) : List (String × Json) → String
  | [] => ""
  | (k, v) :: rest =>
    "," ++ style.separator depth ++ quote k ++ style.colon ++ print style depth v
      ++ printMembers style depth rest

end

/-- The text of a value in a style. -/
def render (style : Style) (value : Json) : String := value.print style 0

/-- The text of a value without blanks. -/
def compact (value : Json) : String := value.render .compact

end Testbed.Json

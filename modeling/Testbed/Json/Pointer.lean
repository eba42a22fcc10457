/-
JSON pointers: a path into a value, one `/` in front of each step.

A step is a key or the position of an item; `~1` stands for a slash in a key and
`~0` for a tilde.
-/
import Testbed.Json.Basic

namespace Testbed.Json

/-- A step with its escapes undone, the slash first. -/
def unescapeStep : List Char → List Char
  | '~' :: '1' :: rest => '/' :: unescapeStep rest
  | '~' :: '0' :: rest => '~' :: unescapeStep rest
  | c :: rest => c :: unescapeStep rest
  | [] => []

/-- The position that a step names: decimal digits without a leading zero. -/
def position? (step : List Char) : Option Nat :=
  match step with
  | [] => none
  | c :: rest =>
    if !step.all Char.isDigit || (c == '0' && !rest.isEmpty) then none
    else some (step.foldl (fun n d => 10 * n + (d.toNat - 48)) 0)

/-- What one step leads to. -/
def child? (value : Json) (step : List Char) : Option Json :=
  match value with
  | .object members => Keyed.get? (String.ofList step) members
  | .array items => position? step >>= fun i => items[i]?
  | _ => none

/-- The part of a value that a pointer leads to; the empty pointer leads to all of it,
and one that does not begin with a slash to nothing. -/
def pointer? (value : Json) (pointer : String) : Option Json :=
  match pointer.toList with
  | [] => some value
  | '/' :: path =>
    (path.splitOn '/').foldlM (fun v step => child? v (unescapeStep step)) value
  | _ => none

end Testbed.Json

/-
Reading a decimal literal with a single rounding.

A literal is an optional sign and either digits with an optional point and exponent or
one of the words for infinity and not-a-number.  The digits and the exponent are an
exact ratio, which is rounded once to the nearest binary64 number.
-/
import Testbed.Decimal.Binary64

namespace Testbed

namespace Binary64

/-- A number that may also be infinite or no number at all. -/
inductive Extended where
  | finite (value : Binary64)
  | infinite (negative : Bool)
  | notANumber
deriving DecidableEq

/-- The value of a run of decimal digits. -/
def digitsValue (digits : List Char) : Nat :=
  digits.foldl (fun n c => 10 * n + (c.toNat - 48)) 0

/-- `digits · 10 ^ power`, rounded.  Beyond the range of any float the power itself decides,
so that no power of ten larger than needed is ever computed. -/
def ofDecimal (negative : Bool) (digits : List Char) (power : Int) : Extended :=
  let n := digitsValue digits
  let size : Int := digits.length + power
  let found :=
    if n = 0 ∨ size < -400 then some (zero negative)
    else if 400 < power then none
    else ofRatio negative (n * tenTo power.toNat) (tenTo (-power).toNat)
  match found with
  | some x => .finite x
  | none => .infinite negative

/-- Splits off a sign. -/
def takeSign : List Char → Bool × List Char
  | '-' :: rest => (true, rest)
  | '+' :: rest => (false, rest)
  | rest => (false, rest)

/-- The number behind the exponent mark. -/
def exponentValue? (s : List Char) : Option Int :=
  let (negative, digits) := takeSign s
  if digits.isEmpty || !digits.all Char.isDigit then none
  else some (if negative then -(digitsValue digits) else digitsValue digits)

/-- The digits of a literal without sign: at least one, on either side of the point. -/
def decimal? (negative : Bool) (s : List Char) : Option Extended := do
  let whole := s.takeWhile Char.isDigit
  let rest := s.dropWhile Char.isDigit
  let (fraction, rest) := match rest with
    | '.' :: more => (more.takeWhile Char.isDigit, more.dropWhile Char.isDigit)
    | _ => ([], rest)
  if whole.isEmpty && fraction.isEmpty then none
  let exponent ← match rest with
    | [] => some 0
    | c :: more => if c = 'e' ∨ c = 'E' then exponentValue? more else none
  return ofDecimal negative (whole ++ fraction) (exponent - fraction.length)

/-- Reads a literal; `none` if the text is none. -/
def ofText? (text : String) : Option Extended :=
  let (negative, body) := takeSign text.toList
  let word := String.ofList (body.map Char.toLower)
  if word = "inf" ∨ word = "infinity" then some (.infinite negative)
  else if word = "nan" then some .notANumber
  else decimal? negative body

end Binary64

end Testbed

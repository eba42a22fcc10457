/-
JSON numbers: integers and floats are different values.

A token without fraction and exponent that fits 64 bits is an integer, every other
token is a finite binary64 number.  `1` and `1.0` are never equal; the two zeros of
the floats are.  A float is written with the fewest digits that read back, and the
layout record below says where positional notation ends.
-/
import Testbed.Decimal.Shortest

namespace Testbed

/-- A JSON number. -/
inductive Number where
  | integer (value : Int)
  | float (value : Binary64)
deriving DecidableEq, Inhabited

/-- Where floats are positional: while the decimal point stands more than `lowest`
and at most `highest` places behind the front of the first digit. -/
structure FloatLayout where
  lowest : Int
  highest : Int

namespace FloatLayout

/-- A run of zeros. -/
def zeros (n : Nat) : List Char := List.replicate n '0'

/-- Scientific notation: one digit, the others behind a point, and the exponent with
its sign. -/
def scientific (digits : List Char) (exponent : Int) : List Char :=
  let mantissa := match digits with
    | [] => []
    | [d] => [d]
    | d :: rest => d :: '.' :: rest
  let sign := if exponent < 0 then '-' else '+'
  mantissa ++ 'e' :: sign :: Nat.toDigits 10 exponent.natAbs

/-- A positive decimal, laid out. -/
def text (l : FloatLayout) (x : Decimal) : List Char :=
  let digits := Nat.toDigits 10 x.digits
  let point : Int := digits.length + x.power
  if point ≤ l.lowest ∨ l.highest < point then scientific digits (point - 1)
  else if 0 ≤ x.power then digits ++ zeros x.power.toNat ++ ['.', '0']
  else if 0 < point then digits.take point.toNat ++ '.' :: digits.drop point.toNat
  else '0' :: '.' :: zeros (-point).toNat ++ digits

end FloatLayout

namespace Number

/-- Equality of numbers, which never crosses from integers to floats. -/
def same : Number → Number → Bool
  | integer a, integer b => a == b
  | float x, float y => x.same y
  | _, _ => false

/-- The layout of floats in JSON: `0.00001` and `1000000000000000.0` are positional,
`1e-6` and `1e+16` are not. -/
def layout : FloatLayout := ⟨-5, 16⟩

/-- The characters of a float. -/
def floatText (x : Binary64) : List Char :=
  let magnitude := if x.isZero then ['0', '.', '0'] else layout.text x.shortest
  if x.negative then '-' :: magnitude else magnitude

/-- The characters of a number. -/
def text : Number → List Char
  | integer (.ofNat n) => Nat.toDigits 10 n
  | integer (.negSucc n) => '-' :: Nat.toDigits 10 (n + 1)
  | float x => floatText x

end Number

end Testbed

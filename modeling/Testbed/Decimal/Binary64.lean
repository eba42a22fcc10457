/-
Finite binary64 numbers, and the one rounding everything else is made of.

A number is its three fields, so every value of the type is finite and no two
values of the type are the same bit pattern.  Arithmetic is not done on the
fields: a product, a quotient or a sum is the exact ratio of two naturals, and
`ofRatio` rounds that ratio once, to the nearest number, a half going to the even
neighbour.  Nothing here depends on the machine's own floating point.
-/

namespace Testbed

/-- A power of two. -/
def twoTo (n : Nat) : Nat := Nat.pow 2 n

/-- A power of ten. -/
def tenTo (n : Nat) : Nat := Nat.pow 10 n

theorem twoTo_pos (n : Nat) : 0 < twoTo n := Nat.pow_pos (by decide)

/-- How many fractions there are: a fraction has 52 bits. -/
abbrev fractionCount : Nat := 4503599627370496

theorem fractionCount_pos : 0 < fractionCount := by decide

/-- How many exponents there are: the largest one of 11 bits is not for finite numbers. -/
abbrev exponentCount : Nat := 2047

/-- A finite binary64 number: sign, biased exponent and fraction. -/
structure Binary64 where
  negative : Bool
  exponent : Fin exponentCount
  fraction : Fin fractionCount
deriving DecidableEq, Inhabited

namespace Binary64

/-- The zero of a sign. -/
def zero (negative : Bool) : Binary64 := ⟨negative, 0, 0⟩

/-- Whether a number is one of the two zeros. -/
def isZero (x : Binary64) : Bool := x.exponent == 0 && x.fraction == 0

/-- The number with the other sign. -/
def neg (x : Binary64) : Binary64 := { x with negative := !x.negative }

/-- The magnitude is `significand · 2 ^ scale`; the leading bit is left out of the
fraction of every number that is not subnormal. -/
def significand (x : Binary64) : Nat :=
  if x.exponent.val = 0 then x.fraction.val else x.fraction.val + fractionCount

/-- The power of two that the significand counts. -/
def scale (x : Binary64) : Int := (max x.exponent.val 1 : Nat) - 1075

/-- Numerator of the magnitude. -/
def numerator (x : Binary64) : Nat := x.significand * twoTo x.scale.toNat

/-- Denominator of the magnitude, a power of two. -/
def denominator (x : Binary64) : Nat := twoTo (-x.scale).toNat

theorem denominator_pos (x : Binary64) : 0 < x.denominator := twoTo_pos _

/-- Whether two numbers are equal as numbers: the zeros are one number. -/
def same (x y : Binary64) : Bool := x == y || (x.isZero && y.isZero)

/-! ### Rounding a ratio -/

/-- The integer nearest to `num / den`, a half going to the even neighbour. -/
def nearest (num den : Nat) : Nat :=
  let below := num / den
  let twice := 2 * (num % den)
  if twice < den then below
  else if den < twice then below + 1
  else below + below % 2

/-- The number whose magnitude is the `rank`-th smallest one, counting zero as the
0-th.  Neighbouring magnitudes have neighbouring ranks, also where the exponent
changes; there are `exponentCount · fractionCount` of them. -/
def ofRank (negative : Bool) (rank : Nat) : Option Binary64 :=
  if h : rank / fractionCount < exponentCount then
    some ⟨negative, ⟨rank / fractionCount, h⟩,
      ⟨rank % fractionCount, Nat.mod_lt rank fractionCount_pos⟩⟩
  else none

/-- The power of two in whose multiples `num / den` has a significand of 53 bits,
or the smallest power there is. -/
def scaleOf (num den : Nat) : Int :=
  let guess : Int := (Nat.log2 num : Int) - (Nat.log2 den : Int) - 52
  let whole := num * twoTo (-guess).toNat / (den * twoTo guess.toNat)
  max (if whole < fractionCount then guess - 1 else guess) (-1074)

/-- The number nearest to `num / den`; `none` if that is beyond the largest one. -/
def ofRatio (negative : Bool) (num den : Nat) : Option Binary64 :=
  if num = 0 then some (zero negative) else
    let scale := scaleOf num den
    let count := nearest (num * twoTo (-scale).toNat) (den * twoTo scale.toNat)
    ofRank negative ((scale + 1074).toNat * fractionCount + count)

/-- The number nearest to a natural number. -/
def ofNat (n : Nat) : Option Binary64 := ofRatio false n 1

/-- The rounded product. -/
def mul (x y : Binary64) : Option Binary64 :=
  ofRatio (x.negative != y.negative) (x.numerator * y.numerator) (x.denominator * y.denominator)

/-- The rounded quotient, for a divisor other than zero. -/
def div (x y : Binary64) : Option Binary64 :=
  ofRatio (x.negative != y.negative) (x.numerator * y.denominator) (x.denominator * y.numerator)

/-- The rounded sum of two numbers that are not negative. -/
def add (x y : Binary64) : Option Binary64 :=
  ofRatio false (x.numerator * y.denominator + y.numerator * x.denominator)
    (x.denominator * y.denominator)

end Binary64

end Testbed

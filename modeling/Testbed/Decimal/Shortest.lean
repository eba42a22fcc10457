/-
The fewest decimal digits that read back as a given number.

A binary64 number stands for every real that rounds to it: an interval whose ends
are half way to the two neighbours, the ends included when the significand is even.
A decimal with few digits is a point of a coarse grid, so the shortest decimal is
found by trying ever finer grids.  On one grid only the two points around the
number itself can be the nearest ones, so those two are all that is tested; the
first grid with a point in the interval gives the digits, and of two points the
nearer one is taken, the even one when both are equally near.  Seventeen digits
always suffice.
-/
import Testbed.Decimal.Binary64

namespace Testbed

/-- A positive decimal: `digits · 10 ^ power`. -/
structure Decimal where
  digits : Nat
  power : Int
deriving DecidableEq, Inhabited

namespace Binary64

/-- Everything that rounds to a positive number, in quarters of its last place:
`low`, the number itself and `high`, each to be multiplied by `2 ^ power`. -/
structure Span where
  low : Nat
  middle : Nat
  high : Nat
  power : Int
  closed : Bool

/-- The span of a number's magnitude.  Below a power of two the neighbours stand
twice as close. -/
def span (x : Binary64) : Span :=
  let m := x.significand
  { low := if x.fraction.val = 0 ∧ 1 < x.exponent.val then 4 * m - 1 else 4 * m - 2
    middle := 4 * m
    high := 4 * m + 2
    power := x.scale - 2
    closed := m % 2 == 0 }

/-- The span in units of `10 ^ power`, over a common denominator. -/
structure Grid where
  low : Nat
  middle : Nat
  high : Nat
  unit : Nat
  closed : Bool

/-- Puts a span on the grid of multiples of `10 ^ power`. -/
def Span.grid (s : Span) (power : Int) : Grid :=
  let up := twoTo s.power.toNat * tenTo (-power).toNat
  { low := s.low * up
    middle := s.middle * up
    high := s.high * up
    unit := twoTo (-s.power).toNat * tenTo power.toNat
    closed := s.closed }

/-- Whether the grid point `n` lies in the span. -/
def Grid.holds (g : Grid) (n : Nat) : Bool :=
  if g.closed then g.low ≤ n * g.unit && n * g.unit ≤ g.high
  else g.low < n * g.unit && n * g.unit < g.high

/-- The grid point of the span that is nearest to its middle, if it has one. -/
def Grid.nearest? (g : Grid) : Option Nat :=
  let below := g.middle / g.unit
  let above := below + 1
  match g.holds below, g.holds above with
  | false, false => none
  | true, false => some below
  | false, true => some above
  | true, true =>
    let twice := 2 * (g.middle % g.unit)
    if twice < g.unit ∨ (twice = g.unit ∧ below % 2 = 0) then some below else some above

/-- The decimal exponent of the leading digit of `num / den`. -/
def leadingPower (num den : Nat) : Int :=
  if den ≤ num then ((Nat.toDigits 10 (num / den)).length : Int) - 1
  else -((Nat.toDigits 10 ((den - 1) / num)).length : Int)

/-- Drops the zeros at the end of the digits, keeping the value. -/
def trim (digits : Nat) (power : Int) : Decimal :=
  if h : 0 < digits ∧ digits % 10 = 0 then trim (digits / 10) (power + 1) else ⟨digits, power⟩
termination_by digits
decreasing_by omega

/-- The shortest decimal on the grids of `count`, `count + 1`, … digits, with `tries`
grids left. -/
def shortestFrom (s : Span) (lead : Int) (count : Nat) : (tries : Nat) → Decimal
  | 0 => ⟨s.middle, 0⟩
  | tries + 1 =>
    let power := lead - count + 1
    match (s.grid power).nearest? with
    | some digits => trim digits power
    | none => shortestFrom s lead (count + 1) tries

/-- The shortest decimal that reads back as the magnitude of a number other than
zero. -/
def shortest (x : Binary64) : Decimal :=
  shortestFrom x.span (leadingPower x.numerator x.denominator) 1 17

end Binary64

end Testbed

/-
The number that a written numeral stands for.

An integer that fits 64 bits is kept as it is.  Everything else becomes a float in
two roundings: the digits are gathered into a significand of 64 bits, which is
rounded to a float, and that float is multiplied or divided by a power of ten, which
is rounded again.  Digits that do not fit the significand only move the exponent, or
are dropped behind the point.  So a numeral with many digits may come out one place
off the nearest float; one of up to fifteen digits and a small exponent never does.
-/
import Testbed.Json.Number

namespace Testbed

/-- A numeral in its parts.  `fraction` and `exponent` are `none` where the numeral has
no such part; the exponent's first component says whether it is negative. -/
structure Numeral where
  negative : Bool
  whole : List Char
  fraction : Option (List Char)
  exponent : Option (Bool × List Char)

namespace Numeral

/-- The value of a decimal digit. -/
def digit (c : Char) : Nat := c.toNat - 48

/-- The value of a run of digits. -/
def natural (digits : List Char) : Nat := digits.foldl (fun n c => 10 * n + digit c) 0

/-- How many integers of 64 bits there are. -/
abbrev wordCount : Nat := 18446744073709551616

/-- How many of them are negative, if some are. -/
abbrev negativeCount : Nat := 9223372036854775808

/-- A significand below `2 ^ 64`, to be multiplied by a power of ten. -/
structure Gathered where
  significand : Nat
  exponent : Int

/-- Gathers the digits in front of the point; from the first one that does not fit on,
digits count as powers of ten. -/
def gatherWhole (significand : Nat) : List Char → Gathered
  | [] => ⟨significand, 0⟩
  | c :: rest =>
    let longer := significand * 10 + digit c
    if longer < wordCount then gatherWhole longer rest else ⟨significand, rest.length + 1⟩

/-- Gathers the digits behind the point, up to the first one that does not fit. -/
def gatherFraction (g : Gathered) : List Char → Gathered
  | [] => g
  | c :: rest =>
    let longer := g.significand * 10 + digit c
    if longer < wordCount then gatherFraction ⟨longer, g.exponent - 1⟩ rest else g

/-- The significand and the power of ten of a numeral. -/
def gather (n : Numeral) : Gathered :=
  let g := gatherFraction (gatherWhole 0 n.whole) (n.fraction.getD [])
  match n.exponent with
  | none => g
  | some (false, digits) => { g with exponent := g.exponent + natural digits }
  | some (true, digits) => { g with exponent := g.exponent - natural digits }

/-- A float times a power of ten, at most `10 ^ 308` a step; `none` if it is too large. -/
def scaleBy (x : Binary64) (exponent : Int) : Option Binary64 :=
  if exponent.natAbs ≤ 308 then do
    let power ← Binary64.ofNat (tenTo exponent.natAbs)
    if 0 ≤ exponent then x.mul power else x.div power
  else if x.isZero then some x
  else if _h : 0 ≤ exponent then none
  else do
    let power ← Binary64.ofNat (tenTo 308)
    let smaller ← x.div power
    scaleBy smaller (exponent + 308)
termination_by exponent.natAbs
decreasing_by omega

/-- The float that a numeral stands for; `none` if it is too large. -/
def float? (n : Numeral) : Option Binary64 := do
  let g := n.gather
  let x ← Binary64.ofNat g.significand
  let y ← scaleBy x g.exponent
  return if n.negative then y.neg else y

/-- The number that a numeral stands for; `none` if it is too large.  A zero with a
minus sign is a float, for no integer is written so. -/
def value? (n : Numeral) : Option Number :=
  let size := natural n.whole
  let plain := n.fraction.isNone && n.exponent.isNone
  if plain ∧ n.negative = false ∧ size < wordCount then some (.integer size)
  else if plain ∧ n.negative = true ∧ 0 < size ∧ size ≤ negativeCount then
    some (.integer (-size))
  else n.float?.map .float

end Numeral

end Testbed

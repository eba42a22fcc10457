/-
Durations and their writing in seconds.
-/
import Testbed.Json.Number

namespace Testbed

/-- A length of time, in whole nanoseconds. -/
structure Duration where
  nanoseconds : Nat
deriving DecidableEq, Inhabited

namespace Duration

/-- No time. -/
def zero : Duration := ⟨0⟩

/-- A number of seconds and of nanoseconds. -/
def ofParts (seconds nanoseconds : Nat) : Duration := ⟨seconds * 1000000000 + nanoseconds⟩

/-- A number of seconds. -/
def ofSeconds (seconds : Nat) : Duration := ofParts seconds 0

/-- The whole seconds in a duration. -/
def wholeSeconds (d : Duration) : Nat := d.nanoseconds / 1000000000

/-- What is left over them. -/
def subsecond (d : Duration) : Nat := d.nanoseconds % 1000000000

/-- The duration in seconds as a float: the whole seconds and the rest are rounded each,
then their sum is. -/
def secondsFloat? (d : Duration) : Option Binary64 := do
  let whole ← Binary64.ofNat d.wholeSeconds
  let rest ← Binary64.ofRatio false d.subsecond 1000000000
  whole.add rest

/-- The duration in seconds: an integer if it is whole, otherwise a float. -/
def seconds (d : Duration) : Number :=
  if d.subsecond = 0 then .integer d.wholeSeconds
  else
    match d.secondsFloat? with
    | some x => .float x
    | none => .integer d.wholeSeconds

end Duration

end Testbed

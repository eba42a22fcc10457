/-
Passing over a value that nobody wants.

A skipped value is checked for its brackets, separators, words and escapes, but it is
not built: it may be nested to any depth, its numbers may be of any size, and its
escapes may spell half a surrogate pair.  The open brackets are kept in a list, the
innermost one first.
-/
import Testbed.Json.Reader

namespace Testbed.Json.Reader

/-- Passes over the rest of a number that began with `c`. -/
def skipNumber (c : Char) : Reader Unit := do
  let first ← if c = '-' then next else pure (some c)
  match first with
  | some d =>
    if d = '0' then do
      match ← peek with
      | some e => if e.isDigit then defect .invalidNumber
      | none => pure ()
    else if d.isDigit then do
      let _ ← takeWhile Char.isDigit
    else defect .invalidNumber
  | none => defect .invalidNumber
  if (← peek) = some '.' then do
    let _ ← next
    if (← takeWhile Char.isDigit).isEmpty then defect .invalidNumber
  let mark ← peek
  if mark = some 'e' ∨ mark = some 'E' then do
    let _ ← next
    let sign ← peek
    if sign = some '+' ∨ sign = some '-' then let _ ← next
    if (← takeWhile Char.isDigit).isEmpty then defect .invalidNumber

/-- Passes over an escape, behind its backslash. -/
def skipEscape : Reader Unit := do
  match ← next with
  | none => defect .endInString
  | some c =>
    if c = 'u' then let _ ← hexUnit
    else if (shortEscape? c).isNone then defect .invalidEscape

/-- Passes over a string, behind its opening quote. -/
def skipString : Reader Unit := do
  let _ ← marks skipEscape fun _ => ()

/-- Passes over the rest of a scalar that began with `c`. -/
def skipScalar (c : Char) : Reader Unit :=
  if c = 'n' then word ['u', 'l', 'l']
  else if c = 't' then word ['r', 'u', 'e']
  else if c = 'f' then word ['a', 'l', 's', 'e']
  else if c = '-' ∨ c.isDigit then skipNumber c
  else if c = '"' then skipString
  else defect .expectedValue

/-- The bracket that a character opens. -/
def opened? (c : Char) : Option Bracket :=
  if c = '[' then some .square else if c = '\x7b' then some .curly else none

/-- Passes over a key and its colon. -/
def skipKey : Reader Unit := do
  match ← peekPastBlanks with
  | some '"' => do
    let _ ← next
    skipString
    match ← peekPastBlanks with
    | some ':' => let _ ← next
    | some _ => defect .expectedColon
    | none => defect (.endIn .curly)
  | some _ => defect .keyNotString
  | none => defect (.endIn .curly)

mutual

/-- Passes over a value that begins here, inside the brackets of `stack`. -/
def skipValue (stack : List Bracket) (s : List Char) : Except Fault (Unit × Rest s) :=
  match afterBlanks s with
  | ⟨[], _⟩ => .error (.malformed .endInValue)
  | ⟨c :: t, ht⟩ =>
    match opened? c with
    | some b =>
      match afterBlanks t with
      | ⟨[], _⟩ => .error (.malformed (.endIn b))
      | ⟨d :: u, hu⟩ =>
        if d = b.close then
          match skipAfter stack u with
          | .error f => .error f
          | .ok (_, rest) => .ok ((), (((rest.behind d).of hu).behind c).of ht)
        else
          match skipEntry b stack (d :: u) with
          | .error f => .error f
          | .ok (_, rest) => .ok ((), ((rest.of hu).behind c).of ht)
    | none =>
      match skipScalar c t with
      | .error f => .error f
      | .ok (_, ⟨u, hu⟩) =>
        match skipAfter stack u with
        | .error f => .error f
        | .ok (_, rest) => .ok ((), ((rest.of hu).behind c).of ht)
termination_by 2 * s.length
decreasing_by all_goals grind

/-- Goes on behind a value that ends here, inside the brackets of `stack`. -/
def skipAfter (stack : List Bracket) (s : List Char) : Except Fault (Unit × Rest s) :=
  match stack with
  | [] => .ok ((), .all s)
  | b :: outer =>
    match afterBlanks s with
    | ⟨[], _⟩ => .error (.malformed (.endIn b))
    | ⟨c :: t, ht⟩ =>
      if c = ',' then
        match skipEntry b outer t with
        | .error f => .error f
        | .ok (_, rest) => .ok ((), (rest.behind c).of ht)
      else if c = b.close then
        match skipAfter outer t with
        | .error f => .error f
        | .ok (_, rest) => .ok ((), (rest.behind c).of ht)
      else .error (.malformed (.expectedSeparator b))
termination_by 2 * s.length
decreasing_by all_goals grind

/-- Passes over an entry of the bracket `b` that begins here, and over all that follows in
the brackets of `b :: stack`. -/
def skipEntry (b : Bracket) (stack : List Bracket) (s : List Char) :
    Except Fault (Unit × Rest s) :=
  match b with
  | .square => skipValue (b :: stack) s
  | .curly =>
    match skipKey s with
    | .error f => .error f
    | .ok (_, ⟨t, ht⟩) =>
      match skipValue (b :: stack) t with
      | .error f => .error f
      | .ok (_, rest) => .ok ((), rest.of ht)
termination_by 2 * s.length + 1
decreasing_by all_goals grind

end

/-- Passes over one value. -/
def skip : Reader Unit := skipValue []

end Testbed.Json.Reader

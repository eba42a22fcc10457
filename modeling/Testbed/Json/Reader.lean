/-
Reading a text from left to right.

A reader takes the characters it needs off the front of a text and hands back the
rest together with the proof that the rest is no longer than the text was.  That
proof is what makes every loop over a text end: a loop takes at least one character
a round by itself, so what its body leaves is strictly shorter.  A reader stops at
the first fault, which is how the first of several faults wins.
-/
import Testbed.Json.Fault
import Testbed.Json.Numeral

namespace Testbed.Json

/-- What is left of the text `s`. -/
abbrev Rest (s : List Char) := { t : List Char // t.length ≤ s.length }

/-- Nothing was taken. -/
def Rest.all (s : List Char) : Rest s := ⟨s, Nat.le_refl _⟩

/-- A rest of a rest. -/
def Rest.of {s t : List Char} (r : Rest t) (h : t.length ≤ s.length) : Rest s :=
  ⟨r.val, Nat.le_trans r.property h⟩

/-- A rest of what stands behind a character. -/
def Rest.behind {t : List Char} (r : Rest t) (c : Char) : Rest (c :: t) :=
  ⟨r.val, Nat.le_succ_of_le r.property⟩

/-- A step that reads an `α` off the front of a text, or stops. -/
def Reader (α : Type) := (s : List Char) → Except Fault (α × Rest s)

namespace Reader

variable {α β σ : Type}

/-- Two steps, one after the other. -/
def andThen (r : Reader α) (next : α → Reader β) : Reader β := fun s =>
  match r s with
  | .error f => .error f
  | .ok (a, ⟨t, h⟩) =>
    match next a t with
    | .error f => .error f
    | .ok (b, rest) => .ok (b, rest.of h)

/-- Readers in sequence: each goes on where the one before it has stopped. -/
instance : Monad Reader where
  pure a := fun s => .ok (a, .all s)
  bind := andThen

/-- Stops with a fault. -/
def fail (f : Fault) : Reader α := fun _ => .error f

/-- Stops at a defect of the text. -/
def defect (d : Defect) : Reader α := fail (.malformed d)

/-- Turns an answer found elsewhere into a step that takes nothing. -/
def ofExcept (answer : Except Fault α) : Reader α := fun s =>
  match answer with
  | .error f => .error f
  | .ok a => .ok (a, .all s)

/-- Runs a reader and keeps what it left as a plain text. -/
def run (r : Reader α) (s : List Char) : Except Fault (α × List Char) :=
  match r s with
  | .error f => .error f
  | .ok (a, rest) => .ok (a, rest.val)

/-! ### Single characters -/

/-- The next character, which stays in the text. -/
def peek : Reader (Option Char) := fun s => .ok (s.head?, .all s)

/-- Takes the next character. -/
def next : Reader (Option Char) := fun s =>
  match s with
  | [] => .ok (none, .all [])
  | c :: t => .ok (some c, (Rest.all t).behind c)

/-- Takes the longest run of characters of a class. -/
def takeWhile (p : Char → Bool) : Reader (List Char) := fun s =>
  .ok (s.takeWhile p, ⟨s.dropWhile p, List.IsSuffix.length_le (List.dropWhile_suffix p)⟩)

/-- The four blanks of JSON. -/
def isBlank (c : Char) : Bool := c == ' ' || c == '\n' || c == '\t' || c == '\r'

/-- Takes all blanks and shows the character behind them. -/
def peekPastBlanks : Reader (Option Char) := do
  let _ ← takeWhile isBlank
  peek

/-- Takes the letters that a word still needs. -/
def word : List Char → Reader Unit
  | [] => pure ()
  | c :: rest => do
    match ← next with
    | none => defect .endInValue
    | some d => if d = c then word rest else defect .expectedWord

/-! ### Brackets -/

/-- The text behind its blanks. -/
def afterBlanks (s : List Char) : Rest s :=
  ⟨s.dropWhile isBlank, List.IsSuffix.length_le (List.dropWhile_suffix isBlank)⟩

/-- The entries of a bracket after the first one, each behind a comma. -/
def laterEntries (b : Bracket) (step : σ → Reader σ) (state : σ) (s : List Char) :
    Except Fault (σ × Rest s) :=
  match afterBlanks s with
  | ⟨[], _⟩ => .error (.malformed (.endIn b))
  | ⟨c :: t, ht⟩ =>
    if c = b.close then .ok (state, ((Rest.all t).behind c).of ht)
    else if c = ',' then
      match afterBlanks t with
      | ⟨[], _⟩ => .error (.malformed .endInValue)
      | ⟨d :: u, hu⟩ =>
        if d = b.close then .error (.malformed .trailingComma)
        else
          match step state (d :: u) with
          | .error f => .error f
          | .ok (state, ⟨v, hv⟩) =>
            match laterEntries b step state v with
            | .error f => .error f
            | .ok (state, rest) => .ok (state, (((rest.of hv).of hu).behind c).of ht)
    else .error (.malformed (.expectedSeparator b))
termination_by s.length
decreasing_by grind

/-- The entries of a bracket that has been opened, up to its close.  Each entry is read
by `step`, which carries a state along. -/
def entries (b : Bracket) (step : σ → Reader σ) (state : σ) : Reader σ := fun s =>
  match afterBlanks s with
  | ⟨[], _⟩ => .error (.malformed (.endIn b))
  | ⟨c :: t, ht⟩ =>
    if c = b.close then .ok (state, ((Rest.all t).behind c).of ht)
    else
      match step state (c :: t) with
      | .error f => .error f
      | .ok (state, ⟨v, hv⟩) =>
        match laterEntries b step state v with
        | .error f => .error f
        | .ok (state, rest) => .ok (state, (rest.of hv).of ht)

/-! ### Strings -/

/-- The value of a hexadecimal digit. -/
def hexValue? (c : Char) : Option Nat :=
  if c.isDigit then some (c.toNat - 48)
  else if 'a' ≤ c ∧ c ≤ 'f' then some (c.toNat - 87)
  else if 'A' ≤ c ∧ c ≤ 'F' then some (c.toNat - 55)
  else none

/-- The unit that four hexadecimal digits spell. -/
def unit? (a b c d : Char) : Option Nat := do
  return (((← hexValue? a) * 16 + (← hexValue? b)) * 16 + (← hexValue? c)) * 16
    + (← hexValue? d)

/-- The size of a text in bytes. -/
def byteSize (s : List Char) : Nat := s.foldr (fun c n => c.utf8Size + n) 0

/-- Takes four hexadecimal digits.  A text of fewer than four bytes ends too early;
otherwise it is the escape that is wrong. -/
def hexUnit : Reader Nat := fun s =>
  match s with
  | a :: b :: c :: d :: t =>
    match unit? a b c d with
    | some n => .ok (n, ⟨t, by simp only [List.length_cons]; omega⟩)
    | none => .error (.malformed .invalidEscape)
  | short =>
    if byteSize short < 4 then .error (.malformed .endInString)
    else .error (.malformed .invalidEscape)

/-- Takes one character that a surrogate pair still needs. -/
def pairMark (c : Char) : Reader Unit := do
  match ← next with
  | none => defect .endInString
  | some d => if d = c then pure () else defect .halfPair

/-- The character of a unicode escape, behind its `u`.  A character beyond 16 bits is
spelled by two escapes, the first of which holds its upper half. -/
def unicodeEscape : Reader Char := do
  let n ← hexUnit
  if 0xDC00 ≤ n ∧ n ≤ 0xDFFF then defect .loneSurrogate
  else if n < 0xD800 ∨ 0xDBFF < n then pure (Char.ofNat n)
  else do
    pairMark '\\'
    pairMark 'u'
    let low ← hexUnit
    if low < 0xDC00 ∨ 0xDFFF < low then defect .loneSurrogate
    else pure (Char.ofNat (0x10000 + (n - 0xD800) * 0x400 + (low - 0xDC00)))

/-- The character that a short escape stands for. -/
def shortEscape? (c : Char) : Option Char :=
  if c = '"' ∨ c = '\\' ∨ c = '/' then some c
  else if c = 'b' then some '\x08'
  else if c = 'f' then some '\x0c'
  else if c = 'n' then some '\n'
  else if c = 'r' then some '\r'
  else if c = 't' then some '\t'
  else none

/-- The character of an escape, behind its backslash. -/
def escaped : Reader Char := do
  match ← next with
  | none => defect .endInString
  | some 'u' => unicodeEscape
  | some c =>
    match shortEscape? c with
    | some d => pure d
    | none => defect .invalidEscape

/-- The marks of a string, behind its opening quote and up to the closing one: `escape`
reads one behind a backslash, and `plain` makes one of any other character. -/
def marks (escape : Reader α) (plain : Char → α) (s : List Char) :
    Except Fault (List α × Rest s) :=
  match s with
  | [] => .error (.malformed .endInString)
  | c :: t =>
    if c = '"' then .ok ([], (Rest.all t).behind c)
    else if c = '\\' then
      match escape t with
      | .error f => .error f
      | .ok (a, ⟨u, hu⟩) =>
        match marks escape plain u with
        | .error f => .error f
        | .ok (as, rest) => .ok (a :: as, (rest.of hu).behind c)
    else if c.toNat < 32 then .error (.malformed .controlCharacter)
    else
      match marks escape plain t with
      | .error f => .error f
      | .ok (as, rest) => .ok (plain c :: as, rest.behind c)
termination_by s.length
decreasing_by all_goals grind

/-- A string, behind its opening quote. -/
def stringRest : Reader String := do
  let chars ← marks escaped id
  pure (String.ofList chars)

/-! ### Numbers -/

/-- The digits behind a decimal point, of which there is at least one. -/
def fractionPart : Reader (Option (List Char)) := do
  match ← peek with
  | some '.' => do
    let _ ← next
    let digits ← takeWhile Char.isDigit
    if digits.isEmpty then
      match ← peek with
      | none => defect .endInValue
      | some _ => defect .invalidNumber
    else pure (some digits)
  | _ => pure none

/-- An exponent: its sign and at least one digit. -/
def exponentPart : Reader (Option (Bool × List Char)) := do
  match ← peek with
  | some c =>
    if c = 'e' ∨ c = 'E' then do
      let _ ← next
      let sign ← peek
      if sign = some '+' ∨ sign = some '-' then let _ ← next
      let digits ← takeWhile Char.isDigit
      if digits.isEmpty then
        match ← peek with
        | none => defect .endInValue
        | some _ => defect .invalidNumber
      else pure (some (sign = some '-', digits))
    else pure none
  | none => pure none

/-- The digits in front of the point: one zero, or digits of which the first is none. -/
def wholePart : Reader (List Char) := do
  match ← next with
  | none => defect .endInValue
  | some c =>
    if c = '0' then do
      match ← peek with
      | some d => if d.isDigit then defect .invalidNumber else pure [c]
      | none => pure [c]
    else if c.isDigit then do
      let digits ← takeWhile Char.isDigit
      pure (c :: digits)
    else defect .invalidNumber

/-- A number, from its sign or first digit on. -/
def number : Reader Number := do
  let negative := (← peek) = some '-'
  if negative then let _ ← next
  let whole ← wholePart
  let fraction ← fractionPart
  let exponent ← exponentPart
  match Numeral.value? ⟨negative, whole, fraction, exponent⟩ with
  | some n => pure n
  | none => defect .numberOutOfRange

/-! ### Values -/

/-- The beginning of a value: a scalar is read as a whole, of a bracket nothing is
taken. -/
def glimpse : Reader Glimpse := do
  match ← peekPastBlanks with
  | none => defect .endInValue
  | some c =>
    if c = 'n' then do
      word ['n', 'u', 'l', 'l']
      pure .null
    else if c = 't' then do
      word ['t', 'r', 'u', 'e']
      pure (.boolean true)
    else if c = 'f' then do
      word ['f', 'a', 'l', 's', 'e']
      pure (.boolean false)
    else if c = '-' ∨ c.isDigit then do
      let n ← number
      pure (.number n)
    else if c = '"' then do
      let _ ← next
      let s ← stringRest
      pure (.string s)
    else if c = '[' then pure .sequence
    else if c = '\x7b' then pure .map
    else defect .expectedValue

/-- The key of a member and the colon behind it; `check` may refuse the key before the
colon is looked for. -/
def key (check : String → Except Fault Unit) : Reader String := do
  match ← peekPastBlanks with
  | some '"' => do
    let _ ← next
    let name ← stringRest
    ofExcept (check name)
    match ← peekPastBlanks with
    | some ':' => do
      let _ ← next
      pure name
    | some _ => defect .expectedColon
    | none => defect (.endIn .curly)
  | some _ => defect .keyNotString
  | none => defect .endInValue

/-- A value with at most `limit` brackets inside one another.  Repeated keys are kept. -/
def value (limit : Nat) : Reader Json := do
  match ← glimpse with
  | .null => pure .null
  | .boolean b => pure (.boolean b)
  | .number n => pure (.number n)
  | .string s => pure (.string s)
  | .sequence =>
    match limit with
    | 0 => defect .tooDeep
    | limit + 1 => do
      let _ ← next
      let items ← entries .square (fun items => do return (← value limit) :: items) []
      pure (.array items.reverse)
  | .map =>
    match limit with
    | 0 => defect .tooDeep
    | limit + 1 => do
      let _ ← next
      let members ← entries .curly
        (fun members => do
          let name ← key fun _ => .ok ()
          return (name, ← value limit) :: members) []
      pure (.object members.reverse)

/-- Reads the whole of a text: nothing but blanks may follow what `r` takes. -/
def whole (r : Reader α) (text : String) : Except Fault α := do
  let (a, rest) ← r.run text.toList
  if (rest.dropWhile isBlank).isEmpty then return a
  else throw (.malformed .trailingCharacters)

end Reader

/-- How many brackets may stand inside one another in a text. -/
def depthLimit : Nat := 127

/-- The value that a text stands for. -/
def parse (limit : Nat) (text : String) : Except Fault Json := do
  let v ← Reader.whole (Reader.value limit) text
  return v.collapse

end Testbed.Json

/-
Records: objects with known keys.

A record is described by its fields, each of which fills a place in a draft.  The
members of an object are taken in the order in which they are written, so the first one
that does not fit is the one reported; what is missing is reported only then.  Keys that
the record does not know are passed over, or handed to `other`.  Some records may also
be written as the array of their fields, where fields at the end may be left out if they
are not required.
-/
import Testbed.Json.Codec

namespace Testbed.Json

/-- A field of a record whose draft is a `σ`. -/
structure Field (σ : Type) where
  name : String
  /-- Whether an array may end before this field. -/
  required : Bool
  /-- Whether the draft has this field already. -/
  filled : σ → Bool
  /-- Reads the field and fills it in. -/
  codec : Codec (σ → σ)

/-- A field that fills an optional place of the draft. -/
def Field.of {σ α : Type} (name : String) (required : Bool) (codec : Codec α)
    (get : σ → Option α) (set : α → σ → σ) : Field σ :=
  ⟨name, required, fun draft => (get draft).isSome, codec.map set⟩

/-- A record that is read into a draft `σ` and becomes an `α`. -/
structure Record (σ α : Type) where
  name : String
  fields : List (Field σ)
  blank : σ
  /-- Reads what stands under a key of no field; without it such members are passed over. -/
  other : Option (String → Codec (σ → σ))
  /-- Whether the record may be written as an array. -/
  positional : Bool
  /-- The fault of an array with more items than there are fields. -/
  excess : (found fields : Nat) → Fault
  /-- Makes the record, or reports what is missing. -/
  finish : σ → Except Fault α

namespace Record

variable {σ α : Type}

/-- The field with a given name. -/
def field? (r : Record σ α) (name : String) : Option (Field σ) :=
  r.fields.find? fun f => f.name == name

/-- Refuses a key whose field the draft has already. -/
def checkKey (r : Record σ α) (draft : σ) (name : String) : Except Fault Unit :=
  match r.field? name with
  | some f => if f.filled draft then .error (.duplicateField name) else .ok ()
  | none => .ok ()

/-- How the value under a key is read; `none` if it is passed over. -/
def codec? (r : Record σ α) (name : String) : Option (Codec (σ → σ)) :=
  match r.field? name with
  | some f => some f.codec
  | none => r.other.map fun other => other name

/-! ### From a value -/

/-- Takes one member into the draft. -/
def takeMember (r : Record σ α) (draft : σ) (entry : String × Json) : Except Fault σ := do
  r.checkKey draft entry.1
  match r.codec? entry.1 with
  | some codec => return (← codec.ofJson entry.2) draft
  | none => return draft

/-- Reads the record from the members of an object. -/
def ofMembers (r : Record σ α) (members : Members) : Except Fault α := do
  let draft ← members.foldlM r.takeMember r.blank
  r.finish draft

/-- Takes items into the draft, field by field, and hands back those that are left over. -/
def takeItems (r : Record σ α) : List (Field σ) → (taken : Nat) → σ → List Json →
    Except Fault (σ × List Json)
  | [], _, draft, items => .ok (draft, items)
  | f :: fields, taken, draft, [] =>
    if f.required then .error (.tooShort taken r.name r.fields.length)
    else r.takeItems fields taken draft []
  | f :: fields, taken, draft, item :: items => do
    let fill ← f.codec.ofJson item
    r.takeItems fields (taken + 1) (fill draft) items

/-- Reads the record from the items of an array. -/
def ofItems (r : Record σ α) (items : List Json) : Except Fault α := do
  let (draft, left) ← r.takeItems r.fields 0 r.blank items
  if !left.isEmpty then throw (r.excess items.length r.fields.length)
  r.finish draft

/-- Reads the record from a value. -/
def ofJson (r : Record σ α) (value : Json) : Except Fault α :=
  match value with
  | .object members => r.ofMembers members
  | .array items =>
    if r.positional then r.ofItems items else .error (.wrongShape .sequence (.record r.name))
  | other => .error (.wrongShape other.glimpse (.record r.name))

/-! ### From a text -/

/-- Reads one member into the draft. -/
def readMember (r : Record σ α) (limit : Nat) (draft : σ) : Reader σ := do
  let name ← Reader.key (r.checkKey draft)
  match r.codec? name with
  | some codec => return (← codec.read limit) draft
  | none => do
    Reader.skip
    return draft

/-- Whether another item follows; the comma in front of it is taken. -/
def another (first : Bool) : Reader Bool := do
  match ← Reader.peekPastBlanks with
  | none => Reader.defect (.endIn .square)
  | some ']' => return false
  | some c =>
    if first then return true
    else if c = ',' then do
      let _ ← Reader.next
      match ← Reader.peekPastBlanks with
      | none => Reader.defect .endInValue
      | some ']' => Reader.defect .trailingComma
      | some _ => return true
    else Reader.defect (.expectedSeparator .square)

/-- The close of an array of which all fields have been read. -/
def closeItems : Reader Unit := do
  match ← Reader.peekPastBlanks with
  | none => Reader.defect (.endIn .square)
  | some ']' => let _ ← Reader.next
  | some ',' => do
    let _ ← Reader.next
    if (← Reader.peekPastBlanks) = some ']' then Reader.defect .trailingComma
    else Reader.defect .trailingCharacters
  | some _ => Reader.defect .trailingCharacters

/-- Reads items into the draft, field by field, and then the close of the array. -/
def readItems (r : Record σ α) (limit : Nat) :
    List (Field σ) → (taken : Nat) → σ → Reader σ
  | [], _, draft => do
    closeItems
    return draft
  | f :: fields, taken, draft => do
    if ← another (taken == 0) then
      let fill ← f.codec.read limit
      r.readItems limit fields (taken + 1) (fill draft)
    else if f.required then Reader.fail (.tooShort taken r.name r.fields.length)
    else r.readItems limit fields taken draft

/-- Reads the record from a text. -/
def read (r : Record σ α) (limit : Nat) : Reader α := do
  match ← Reader.glimpse with
  | .map =>
    let draft ← Codec.bracketed limit fun limit =>
      Reader.entries .curly (r.readMember limit) r.blank
    Reader.ofExcept (r.finish draft)
  | .sequence =>
    if r.positional then
      let draft ← Codec.bracketed limit fun limit => r.readItems limit r.fields 0 r.blank
      Reader.ofExcept (r.finish draft)
    else Reader.fail (.wrongShape .sequence (.record r.name))
  | other => Reader.fail (.wrongShape other (.record r.name))

/-- Both ways of reading a record. -/
def codec (r : Record σ α) : Codec α := ⟨r.ofJson, r.read⟩

/-- What must be there. -/
def require (name : String) (place : Option α) : Except Fault α :=
  match place with
  | some a => .ok a
  | none => .error (.missingField name)

end Record

end Testbed.Json

/-
The grammar of documents.

What may stand in the place of a document is said here without a reader: which keys an object
needs, which it allows, and what must stand under them.  A key that is not mentioned does not
matter.  Most objects may also be written as the array of their fields, from the first one on.

A value is read as a document exactly if it matches.  Each record is read from what matches its
rule, if each of its fields is; so there is one lemma for a rule, and the rules are put together
as the records are.
-/
import Testbed.Proofs.Document.Records
import Testbed.Proofs.Document.Text

namespace Testbed

/-- A number as a program holds it: an integer fits into 64 bits, with or without a sign. -/
def Number.Sized : Number → Prop
  | .integer value => -(Numeral.negativeCount : Int) ≤ value ∧ value < Numeral.wordCount
  | .float _ => True

/-- What is read back from its characters is such a number. -/
theorem Number.Restorable.sized {n : Number} (h : n.Restorable) : n.Sized := by
  cases n with
  | float x => trivial
  | integer value => exact h

namespace Document

open Json (Codec Spells)
open Outcome

/-! ### Rules -/

/-- A key that must be there, with what must stand under it. -/
def Needs (key : String) (rule : Json → Prop) (members : Members) : Prop :=
  ∃ v, Keyed.get? key members = some v ∧ rule v

/-- A key that may be there, with what must stand under it if it is. -/
def Allows (key : String) (rule : Json → Prop) (members : Members) : Prop :=
  ∀ v, Keyed.get? key members = some v → rule v

/-- Any value. -/
def IsAnything (_ : Json) : Prop := True

/-- A string. -/
def IsString (v : Json) : Prop := ∃ s, v = .string s

/-- A number, whole or not. -/
def IsNumber (v : Json) : Prop := ∃ n, v = .number n

/-- A number, or null for none. -/
def IsNumberOrNull (v : Json) : Prop := IsNumber v ∨ v = .null

/-- An object with any members. -/
def IsObject (v : Json) : Prop := ∃ members, v = .object members

/-- An array of items that match. -/
def IsListOf (rule : Json → Prop) (v : Json) : Prop :=
  ∃ items, v = .array items ∧ ∀ item ∈ items, rule item

/-- The number of a function: an integer of 64 bits without a sign, and no float. -/
def IsId (v : Json) : Prop := ∃ n : Nat, n < Numeral.wordCount ∧ v = .number (.integer n)

/-! ### The grammar -/

/-- A wait, in which only the time has to be told. -/
def IsWait (v : Json) : Prop :=
  ∃ members, Spells ["time", "launched_ids", "finished_ids"] v members
    ∧ Needs "time" IsNumber members
    ∧ Allows "launched_ids" (IsListOf IsId) members
    ∧ Allows "finished_ids" (IsListOf IsId) members

/-- A failure policy, which has no keys that count. -/
def IsFailure (v : Json) : Prop := ∃ members, Spells [] v members

/-- The payload of a job, which is never an array. -/
def IsJob (v : Json) : Prop :=
  ∃ members, v = .object members
    ∧ Needs "entity_name" IsAnything members
    ∧ Needs "offset" IsNumber members
    ∧ Allows "interval" IsNumberOrNull members

/-- A payload with one field. -/
def IsSingle (key : String) (rule : Json → Prop) (v : Json) : Prop :=
  ∃ members, Spells [key] v members ∧ Needs key rule members

/-- The payload of a scenario launch. -/
def IsLaunch (v : Json) : Prop :=
  ∃ members, Spells ["scenario_name", "arguments"] v members
    ∧ Needs "scenario_name" IsAnything members
    ∧ Allows "arguments" IsObject members

/-- A payload with a condition and two bodies. -/
def IsBodies (first second : String) (v : Json) : Prop :=
  ∃ members, Spells ["condition", first, second] v members
    ∧ Needs "condition" IsAnything members
    ∧ Allows first (IsListOf IsId) members
    ∧ Allows second (IsListOf IsId) members

/-- A payload of a kind. -/
def IsPayload : Kind → Json → Prop
  | .startJob => IsJob
  | .stopJob | .stopScenario => IsSingle "openbach_function_id" IsId
  | .stopJobs => IsSingle "openbach_function_ids" (IsListOf IsId)
  | .startScenario => IsLaunch
  | .reboot => IsSingle "entity_name" IsAnything
  | .branch => IsBodies "openbach_functions_true" "openbach_functions_false"
  | .loop => IsBodies "openbach_functions_while" "openbach_functions_end"

/-- Under the first key that is the name of a kind there is a payload of this kind. -/
def HasAction (members : Members) : Prop :=
  ∃ before kind payload after, members = before ++ (Kind.tag kind, payload) :: after
    ∧ (∀ other : Kind, other.tag ∉ Keyed.keys before) ∧ IsPayload kind payload

/-- A function, which is never an array. -/
def IsFunction (v : Json) : Prop :=
  ∃ members, v = .object members
    ∧ Needs "id" IsId members
    ∧ Needs "label" IsString members
    ∧ Allows "wait" IsWait members
    ∧ Allows "on_fail" IsFailure members
    ∧ HasAction members

/-- A document, in which only the name has to be told. -/
def IsDocument (v : Json) : Prop :=
  ∃ members,
    Spells ["name", "description", "arguments", "constants", "openbach_functions"] v members
    ∧ Needs "name" IsString members
    ∧ Allows "description" IsString members
    ∧ Allows "arguments" IsObject members
    ∧ Allows "constants" IsObject members
    ∧ Allows "openbach_functions" (IsListOf IsFunction) members

end Document

namespace Json.Codec

open Document Outcome

variable {α : Type} {c : Codec α} {rule : Json → Prop} {members : Members}

/-! ### What codecs accept -/

/-- Among the values that a program holds, a codec reads those that match a rule. -/
def Accepts (c : Codec α) (rule : Json → Prop) : Prop :=
  ∀ v, v.Proper Number.Sized → (Succeeds (c.ofJson v) ↔ rule v)

theorem accepts_string : string.Accepts IsString := by
  intro v _
  cases v <;> simp [string, ofGlimpse, stringOf, Json.glimpse, IsString, Succeeds]

theorem accepts_number : number.Accepts IsNumber := by
  intro v _
  cases v <;> simp [number, ofGlimpse, numberOf, Json.glimpse, IsNumber, Succeeds]

theorem accepts_number? : number?.Accepts IsNumberOrNull := by
  intro v _
  cases v <;> simp [number?, ofGlimpse, numberOf, Json.glimpse, IsNumberOrNull, IsNumber, Succeeds,
    Except.map]

theorem accepts_any : any.Accepts IsAnything :=
  fun v _ => iff_of_true (succeeds_ok v.collapse) trivial

theorem accepts_members : Codec.members.Accepts IsObject := by
  intro v _
  cases v <;> simp [Codec.members, IsObject, Succeeds]

theorem accepts_index : index.Accepts IsId := by
  intro v hv
  cases hv with
  | @number n hn =>
      cases n with
      | float x => simp [index, ofGlimpse, indexOf, Json.glimpse, IsId, Succeeds]
      | integer value =>
          cases value with
          | ofNat n => exact iff_of_true (succeeds_ok n) ⟨n, Int.ofNat_lt.mp hn.2, rfl⟩
          | negSucc n => simp [index, ofGlimpse, indexOf, Json.glimpse, IsId, Succeeds]
  | _ => simp [index, ofGlimpse, indexOf, Json.glimpse, IsId, Succeeds]

theorem Accepts.list (h : c.Accepts rule) : c.list.Accepts (IsListOf rule) := by
  intro v hv
  cases v with
  | array items =>
      refine (succeeds_mapM items).trans ?_
      simp only [IsListOf, Json.array.injEq, exists_eq_left']
      exact forall₂_congr fun item hitem => h item (hv.items item hitem)
  | _ => simp [Codec.list, IsListOf, Succeeds]

/-! ### What fields accept -/

variable {key : String}

/-- A field that must be there is read exactly if its key is there with what must stand under it. -/
theorem Accepts.needs (h : c.Accepts rule) (hmembers : (Json.object members).Proper Number.Sized) :
    (∃ a, c.Finds (Keyed.all key members) (some a)) ↔ Needs key rule members := by
  rw [Keyed.all_of_nodup hmembers.keys, Needs]
  cases hget : Keyed.get? key members with
  | none =>
      refine iff_of_false ?_ (by simp)
      rintro ⟨a, ha⟩
      cases ha
  | some v =>
      have hv := h v (hmembers.member (Keyed.mem_of_get?_eq_some hget))
      simp only [Option.toList_some, Option.some.injEq, exists_eq_left', ← hv]
      refine ⟨?_, ?_⟩
      · rintro ⟨a, ha⟩
        cases ha with
        | one read => exact ⟨a, read⟩
      · rintro ⟨a, ha⟩
        exact ⟨a, .one ha⟩

/-- A field that may be there is read exactly if under its key is what must stand there, or
nothing. -/
theorem Accepts.allows (h : c.Accepts rule) (hmembers : (Json.object members).Proper Number.Sized) :
    (∃ found, c.Finds (Keyed.all key members) found) ↔ Allows key rule members := by
  rw [Keyed.all_of_nodup hmembers.keys, Allows]
  cases hget : Keyed.get? key members with
  | none => exact iff_of_true ⟨none, .nothing⟩ nofun
  | some v =>
      have hv := h v (hmembers.member (Keyed.mem_of_get?_eq_some hget))
      simp only [Option.toList_some, Option.some.injEq, forall_eq', ← hv]
      refine ⟨?_, ?_⟩
      · rintro ⟨_, hfound⟩
        cases hfound with
        | one read => exact ⟨_, read⟩
      · rintro ⟨a, ha⟩
        exact ⟨some a, .one ha⟩

end Json.Codec

namespace Document

open Json (Spells)
open Json.Codec Outcome

/-! ### What records accept -/

theorem accepts_wait : waitRecord.codec.Accepts IsWait := by
  intro v hv
  refine ⟨?_, ?_⟩
  · rintro ⟨w, hw⟩
    obtain ⟨members, hspells, time, launched, finished, htime, hlaunched, hfinished, -⟩ :=
      waitRecord_eq_ok.mp hw
    have hproper := hspells.proper (by decide) hv
    exact ⟨members, hspells, (accepts_number.needs hproper).mp ⟨time, htime⟩,
      (accepts_index.list.allows hproper).mp ⟨launched, hlaunched⟩,
      (accepts_index.list.allows hproper).mp ⟨finished, hfinished⟩⟩
  · rintro ⟨members, hspells, htime, hlaunched, hfinished⟩
    have hproper := hspells.proper (by decide) hv
    obtain ⟨time, htime⟩ := (accepts_number.needs hproper).mpr htime
    obtain ⟨launched, hlaunched⟩ := (accepts_index.list.allows hproper).mpr hlaunched
    obtain ⟨finished, hfinished⟩ := (accepts_index.list.allows hproper).mpr hfinished
    exact ⟨_, waitRecord_eq_ok.mpr
      ⟨members, hspells, time, launched, finished, htime, hlaunched, hfinished, rfl⟩⟩

theorem accepts_failure : failureRecord.codec.Accepts IsFailure :=
  fun _ _ => ⟨fun ⟨_, hu⟩ => failureRecord_eq_ok.mp hu, fun h => ⟨(), failureRecord_eq_ok.mpr h⟩⟩

theorem accepts_job : jobRecord.codec.Accepts IsJob := by
  intro v hv
  refine ⟨?_, ?_⟩
  · rintro ⟨job, hjob⟩
    obtain ⟨members, rfl, entity, offset, interval, hentity, hoffset, hinterval, -⟩ :=
      jobRecord_eq_ok.mp hjob
    exact ⟨members, rfl, (accepts_any.needs hv).mp ⟨entity, hentity⟩,
      (accepts_number.needs hv).mp ⟨offset, hoffset⟩,
      (accepts_number?.allows hv).mp ⟨interval, hinterval⟩⟩
  · rintro ⟨members, rfl, hentity, hoffset, hinterval⟩
    obtain ⟨entity, hentity⟩ := (accepts_any.needs hv).mpr hentity
    obtain ⟨offset, hoffset⟩ := (accepts_number.needs hv).mpr hoffset
    obtain ⟨interval, hinterval⟩ := (accepts_number?.allows hv).mpr hinterval
    exact ⟨_, jobRecord_eq_ok.mpr
      ⟨members, rfl, entity, offset, interval, hentity, hoffset, hinterval, rfl⟩⟩

theorem Single.accepts {α : Type} {r : Json.Record (Option α) α} {key : String} {c : Json.Codec α}
    {rule : Json → Prop} (h : Single r key c) (hc : c.Accepts rule) :
    r.codec.Accepts (IsSingle key rule) := by
  intro v hv
  refine ⟨?_, ?_⟩
  · rintro ⟨a, ha⟩
    obtain ⟨members, hspells, hfinds⟩ := h.ofJson_eq_ok.mp ha
    have hproper := hspells.proper (List.nodup_singleton key) hv
    exact ⟨members, hspells, (hc.needs hproper).mp ⟨a, hfinds⟩⟩
  · rintro ⟨members, hspells, hneeds⟩
    have hproper := hspells.proper (List.nodup_singleton key) hv
    obtain ⟨a, hfinds⟩ := (hc.needs hproper).mpr hneeds
    exact ⟨a, h.ofJson_eq_ok.mpr ⟨members, hspells, hfinds⟩⟩

theorem accepts_launch : launchRecord.codec.Accepts IsLaunch := by
  intro v hv
  refine ⟨?_, ?_⟩
  · rintro ⟨launch, hlaunch⟩
    obtain ⟨members, hspells, scenario, arguments, hscenario, harguments, -⟩ :=
      launchRecord_eq_ok.mp hlaunch
    have hproper := hspells.proper (by decide) hv
    exact ⟨members, hspells, (accepts_any.needs hproper).mp ⟨scenario, hscenario⟩,
      (accepts_members.allows hproper).mp ⟨arguments, harguments⟩⟩
  · rintro ⟨members, hspells, hscenario, harguments⟩
    have hproper := hspells.proper (by decide) hv
    obtain ⟨scenario, hscenario⟩ := (accepts_any.needs hproper).mpr hscenario
    obtain ⟨arguments, harguments⟩ := (accepts_members.allows hproper).mpr harguments
    exact ⟨_, launchRecord_eq_ok.mpr
      ⟨members, hspells, scenario, arguments, hscenario, harguments, rfl⟩⟩

theorem accepts_bodies {name first second : String} (honce : ["condition", first, second].Nodup) :
    (bodiesRecord name first second).codec.Accepts (IsBodies first second) := by
  intro v hv
  refine ⟨?_, ?_⟩
  · rintro ⟨bodies, hbodies⟩
    obtain ⟨members, hspells, condition, whenFirst, whenSecond, hcondition, hfirst, hsecond, -⟩ :=
      (bodiesRecord_eq_ok honce).mp hbodies
    have hproper := hspells.proper honce hv
    exact ⟨members, hspells, (accepts_any.needs hproper).mp ⟨condition, hcondition⟩,
      (accepts_index.list.allows hproper).mp ⟨whenFirst, hfirst⟩,
      (accepts_index.list.allows hproper).mp ⟨whenSecond, hsecond⟩⟩
  · rintro ⟨members, hspells, hcondition, hfirst, hsecond⟩
    have hproper := hspells.proper honce hv
    obtain ⟨condition, hcondition⟩ := (accepts_any.needs hproper).mpr hcondition
    obtain ⟨whenFirst, hfirst⟩ := (accepts_index.list.allows hproper).mpr hfirst
    obtain ⟨whenSecond, hsecond⟩ := (accepts_index.list.allows hproper).mpr hsecond
    exact ⟨_, (bodiesRecord_eq_ok honce).mpr ⟨members, hspells, condition, whenFirst, whenSecond,
      hcondition, hfirst, hsecond, rfl⟩⟩

theorem accepts_payload (kind : Kind) {v : Json} (hv : v.Proper Number.Sized) :
    Succeeds (Action.ofPayload kind v) ↔ IsPayload kind v := by
  cases kind with
  | startJob => exact succeeds_map.trans (accepts_job v hv)
  | stopJob => exact succeeds_map.trans (stopRecord_single.accepts accepts_index v hv)
  | stopJobs => exact succeeds_map.trans (stopsRecord_single.accepts accepts_index.list v hv)
  | startScenario => exact succeeds_map.trans (accepts_launch v hv)
  | stopScenario => exact succeeds_map.trans (stopRecord_single.accepts accepts_index v hv)
  | reboot => exact succeeds_map.trans (rebootRecord_single.accepts accepts_any v hv)
  | branch => exact succeeds_map.trans (accepts_bodies (by decide) v hv)
  | loop => exact succeeds_map.trans (accepts_bodies (by decide) v hv)

theorem hasAction_iff {members : Members} :
    HasAction members
      ↔ ∃ kind payload, kindMember? members = some (kind, payload) ∧ IsPayload kind payload := by
  simp only [HasAction, kindMember?_iff_append]
  refine ⟨?_, ?_⟩
  · rintro ⟨before, kind, payload, after, hmembers, hbefore, hpayload⟩
    exact ⟨kind, payload, ⟨before, after, hmembers, hbefore⟩, hpayload⟩
  · rintro ⟨kind, payload, ⟨before, after, hmembers, hbefore⟩, hpayload⟩
    exact ⟨before, kind, payload, after, hmembers, hbefore, hpayload⟩

theorem accepts_function : functionRecord.codec.Accepts IsFunction := by
  intro v hv
  refine ⟨?_, ?_⟩
  · rintro ⟨f, hf⟩
    obtain ⟨members, rfl, id, label, wait, failure, kind, payload, action, hid, hlabel, hwait,
      hfailure, hkind, haction, -⟩ := functionRecord_eq_ok.mp hf
    have hpayload := accepts_payload kind (hv.member (mem_of_kindMember? hkind))
    exact ⟨members, rfl, (accepts_index.needs hv).mp ⟨id, hid⟩,
      (accepts_string.needs hv).mp ⟨label, hlabel⟩, (accepts_wait.allows hv).mp ⟨wait, hwait⟩,
      (accepts_failure.allows hv).mp ⟨failure, hfailure⟩,
      hasAction_iff.mpr ⟨kind, payload, hkind, hpayload.mp ⟨action, haction⟩⟩⟩
  · rintro ⟨members, rfl, hid, hlabel, hwait, hfailure, haction⟩
    obtain ⟨kind, payload, hkind, haction⟩ := hasAction_iff.mp haction
    have hpayload := accepts_payload kind (hv.member (mem_of_kindMember? hkind))
    obtain ⟨id, hid⟩ := (accepts_index.needs hv).mpr hid
    obtain ⟨label, hlabel⟩ := (accepts_string.needs hv).mpr hlabel
    obtain ⟨wait, hwait⟩ := (accepts_wait.allows hv).mpr hwait
    obtain ⟨failure, hfailure⟩ := (accepts_failure.allows hv).mpr hfailure
    obtain ⟨action, haction⟩ := hpayload.mpr haction
    exact ⟨_, functionRecord_eq_ok.mpr ⟨members, rfl, id, label, wait, failure, kind, payload,
      action, hid, hlabel, hwait, hfailure, hkind, haction, rfl⟩⟩

/--
**A value is read as a document exactly if it matches the grammar.**

The values are those that a program holds: no object has a key twice, and integers have 64 bits.
-/
theorem ofJson_succeeds_iff {v : Json} (hv : v.Proper Number.Sized) :
    Succeeds (ofJson v) ↔ IsDocument v := by
  refine ⟨?_, ?_⟩
  · rintro ⟨d, hd⟩
    obtain ⟨members, hspells, name, description, arguments, constants, functions, hname,
      hdescription, harguments, hconstants, hfunctions, -⟩ := ofJson_eq_ok.mp hd
    have hproper := hspells.proper (by decide) hv
    exact ⟨members, hspells, (accepts_string.needs hproper).mp ⟨name, hname⟩,
      (accepts_string.allows hproper).mp ⟨description, hdescription⟩,
      (accepts_members.allows hproper).mp ⟨arguments, harguments⟩,
      (accepts_members.allows hproper).mp ⟨constants, hconstants⟩,
      (accepts_function.list.allows hproper).mp ⟨functions, hfunctions⟩⟩
  · rintro ⟨members, hspells, hname, hdescription, harguments, hconstants, hfunctions⟩
    have hproper := hspells.proper (by decide) hv
    obtain ⟨name, hname⟩ := (accepts_string.needs hproper).mpr hname
    obtain ⟨description, hdescription⟩ := (accepts_string.allows hproper).mpr hdescription
    obtain ⟨arguments, harguments⟩ := (accepts_members.allows hproper).mpr harguments
    obtain ⟨constants, hconstants⟩ := (accepts_members.allows hproper).mpr hconstants
    obtain ⟨functions, hfunctions⟩ := (accepts_function.list.allows hproper).mpr hfunctions
    exact ⟨_, ofJson_eq_ok.mpr ⟨members, hspells, name, description, arguments, constants,
      functions, hname, hdescription, harguments, hconstants, hfunctions, rfl⟩⟩

theorem handwritten_sized : handwritten.Proper Number.Sized :=
  handwritten_proper.mono fun _ h => h.sized

/-- A function and a wait as they may be written by hand match. -/
theorem handwritten_isDocument :
    handwritten.Proper Number.Sized ∧ Succeeds (ofJson handwritten) ∧ IsDocument handwritten := by
  have hread : ofJson handwritten = .ok handwrittenDocument := rfl
  exact ⟨handwritten_sized, ⟨_, hread⟩, (ofJson_succeeds_iff handwritten_sized).mp ⟨_, hread⟩⟩

end Document

end Testbed

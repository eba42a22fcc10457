/-
What the records of a document are read from.

One theorem for each record says when it is read and as what, in terms of what is found under its
keys.  The drafts that the records are read through are not mentioned any more: what is known of
reading a document is what these theorems say.
-/
import Testbed.Document.Reading
import Testbed.Proofs.Json.Fields

namespace Testbed.Document

open Json (Codec Record Spells)
open Outcome

/-! ### Records with one field -/

section Single

variable {α : Type} {r : Record (Option α) α} {key : String} {c : Codec α}

/-- A record that is its only field. -/
structure Single (r : Record (Option α) α) (key : String) (c : Codec α) : Prop where
  fields : r.fields = [.of key true c id fun a _ => some a]
  blank : r.blank = none
  other : r.other = none
  positional : r.positional = true
  finish : r.finish = Record.require key

theorem Single.place (h : Single r key c) : r.Place key c id := by
  refine ⟨h.blank, ⟨true, fun a _ => some a, ?_, fun _ _ => rfl⟩, ?_, ?_⟩
  · simp [Record.field?, h.fields, Json.Field.of]
  · simp [h.fields, Json.Field.of]
  · simp [h.other]

theorem Single.placed (h : Single r key c) : r.Placed := by
  refine ⟨by simp [h.fields], ?_, by simp [h.other], ?_⟩
  · rw [h.fields]
    exact List.forall_mem_singleton.mpr ⟨_, _, _, h.place⟩
  · intro draft a ha
    rw [h.finish, Record.require_eq_ok] at ha
    rw [h.fields, ha]
    simp [Json.Field.of]

theorem Single.ofJson_eq_ok (h : Single r key c) {v : Json} {a : α} :
    r.ofJson v = .ok a
      ↔ ∃ members, Spells [key] v members ∧ c.Finds (Keyed.all key members) (some a) := by
  have hnames : r.fields.map Json.Field.name = [key] := by rw [h.fields]; rfl
  rw [h.placed.ofJson_positional h.positional, hnames, h.finish]
  refine ⟨?_, ?_⟩
  · rintro ⟨members, _, hspells, htakes, ha⟩
    exact ⟨members, hspells, (h.place.require_iff htakes).mp ha⟩
  · rintro ⟨members, hspells, ha⟩
    have hfound : ∀ f ∈ r.fields, ∃ found, f.codec.Finds (Keyed.all f.name members) found := by
      rw [h.fields]
      exact List.forall_mem_singleton.mpr ⟨_, ha.map _⟩
    obtain ⟨filled, htakes⟩ := h.placed.takes hfound
    exact ⟨members, filled, hspells, htakes, (h.place.require_iff htakes).mpr ha⟩

end Single

theorem stopRecord_single : Single stopRecord "openbach_function_id" .index :=
  ⟨rfl, rfl, rfl, rfl, rfl⟩

theorem stopsRecord_single : Single stopsRecord "openbach_function_ids" (.list .index) :=
  ⟨rfl, rfl, rfl, rfl, rfl⟩

theorem rebootRecord_single : Single rebootRecord "entity_name" .any := ⟨rfl, rfl, rfl, rfl, rfl⟩

/-! ### Waits -/

namespace WaitDraft

theorem time_place : waitRecord.Place "time" .number (·.time) :=
  ⟨rfl, ⟨_, _, rfl, fun _ _ => rfl⟩, by simp [waitRecord, Json.Field.of, Codec.spares_map], nofun⟩

theorem launched_place : waitRecord.Place "launched_ids" (.list .index) (·.launched) :=
  ⟨rfl, ⟨_, _, rfl, fun _ _ => rfl⟩, by simp [waitRecord, Json.Field.of, Codec.spares_map], nofun⟩

theorem finished_place : waitRecord.Place "finished_ids" (.list .index) (·.finished) :=
  ⟨rfl, ⟨_, _, rfl, fun _ _ => rfl⟩, by simp [waitRecord, Json.Field.of, Codec.spares_map], nofun⟩

theorem placed : waitRecord.Placed := by
  refine ⟨by decide, List.forall_mem_cons.mpr ⟨⟨_, _, _, time_place⟩, List.forall_mem_cons.mpr
    ⟨⟨_, _, _, launched_place⟩, List.forall_mem_singleton.mpr ⟨_, _, _, finished_place⟩⟩⟩,
    nofun, ?_⟩
  intro draft w hw
  obtain ⟨time, htime, -⟩ := bind_eq_ok.mp hw
  simp [waitRecord, Json.Field.of, Record.require_eq_ok.mp htime]

end WaitDraft

theorem waitRecord_eq_ok {v : Json} {w : Wait} :
    waitRecord.ofJson v = .ok w ↔ ∃ members,
      Spells ["time", "launched_ids", "finished_ids"] v members ∧ ∃ time launched finished,
        Codec.number.Finds (Keyed.all "time" members) (some time)
        ∧ Codec.index.list.Finds (Keyed.all "launched_ids" members) launched
        ∧ Codec.index.list.Finds (Keyed.all "finished_ids" members) finished
        ∧ (⟨time, launched.getD [], finished.getD []⟩ : Wait) = w := by
  refine (WaitDraft.placed.ofJson_positional rfl).trans ⟨?_, ?_⟩
  · rintro ⟨members, draft, hspells, htakes, hfinish⟩
    obtain ⟨time, htime, hfinish⟩ := bind_eq_ok.mp hfinish
    exact ⟨members, hspells, time, draft.launched, draft.finished,
      (WaitDraft.time_place.require_iff htakes).mp htime, WaitDraft.launched_place.finds htakes,
      WaitDraft.finished_place.finds htakes, pure_eq_ok.mp hfinish⟩
  · rintro ⟨members, hspells, time, launched, finished, htime, hlaunched, hfinished, rfl⟩
    obtain ⟨draft, htakes⟩ := WaitDraft.placed.takes (List.forall_mem_cons.mpr
      ⟨⟨_, htime.map _⟩, List.forall_mem_cons.mpr ⟨⟨_, hlaunched.map _⟩,
        List.forall_mem_singleton.mpr ⟨_, hfinished.map _⟩⟩⟩)
    cases hlaunched.unique (WaitDraft.launched_place.finds htakes)
    cases hfinished.unique (WaitDraft.finished_place.finds htakes)
    exact ⟨members, draft, hspells, htakes,
      bind_eq_ok.mpr ⟨time, (WaitDraft.time_place.require_iff htakes).mpr htime, rfl⟩⟩

theorem failureRecord_eq_ok {v : Json} {u : Unit} :
    failureRecord.ofJson v = .ok u ↔ ∃ members, Spells [] v members := by
  have hplaced : failureRecord.Placed :=
    ⟨List.nodup_nil, fun _ hf => absurd hf List.not_mem_nil, nofun,
      fun _ _ _ _ hf => absurd hf List.not_mem_nil⟩
  refine (hplaced.ofJson_positional rfl).trans ⟨?_, ?_⟩
  · rintro ⟨members, -, hspells, -, -⟩
    exact ⟨members, hspells⟩
  · rintro ⟨members, hspells⟩
    obtain ⟨draft, htakes⟩ := hplaced.takes fun _ hf => absurd hf List.not_mem_nil
    exact ⟨members, draft, hspells, htakes, rfl⟩

/-! ### Payloads -/

namespace JobDraft

theorem entity_place : jobRecord.Place "entity_name" .any (·.entity) :=
  ⟨rfl, ⟨_, _, rfl, fun _ _ => rfl⟩, by simp [jobRecord, Json.Field.of, Codec.spares_map],
    by simp [jobRecord, Codec.spares_map]⟩

theorem offset_place : jobRecord.Place "offset" .number (·.offset) :=
  ⟨rfl, ⟨_, _, rfl, fun _ _ => rfl⟩, by simp [jobRecord, Json.Field.of, Codec.spares_map],
    by simp [jobRecord, Codec.spares_map]⟩

theorem interval_place : jobRecord.Place "interval" .number? (·.interval) :=
  ⟨rfl, ⟨_, _, rfl, fun _ _ => rfl⟩, by simp [jobRecord, Json.Field.of, Codec.spares_map],
    by simp [jobRecord, Codec.spares_map]⟩

theorem placed : jobRecord.Placed := by
  refine ⟨by decide, List.forall_mem_cons.mpr ⟨⟨_, _, _, entity_place⟩, List.forall_mem_cons.mpr
    ⟨⟨_, _, _, offset_place⟩, List.forall_mem_singleton.mpr ⟨_, _, _, interval_place⟩⟩⟩, ?_, ?_⟩
  · rintro other ⟨⟩ key v
    exact ⟨_, rfl⟩
  · intro draft job hjob
    obtain ⟨entity, hentity, hjob⟩ := bind_eq_ok.mp hjob
    obtain ⟨offset, hoffset, -⟩ := bind_eq_ok.mp hjob
    simp [jobRecord, Json.Field.of, Record.require_eq_ok.mp hentity,
      Record.require_eq_ok.mp hoffset]

end JobDraft

theorem field?_jobRecord {name : String} : jobRecord.field? name = none ↔ name ∉ jobKeys := by
  have hnames : jobRecord.fields.map Json.Field.name = jobKeys := rfl
  rw [Record.field?, List.find?_eq_none, ← hnames, List.mem_map]
  simp

/-- The entries of a job among the members of its payload. -/
def jobEntries (members : Members) : Members :=
  Keyed.ofList (Json.collapseMembers (members.filter fun entry => !jobKeys.contains entry.1))

theorem entries_eq {members : Members} {draft : JobDraft}
    (h : jobRecord.Takes jobRecord.blank members draft) : draft.entries = jobEntries members := by
  have hkeys : (members.filter fun entry => (jobRecord.field? entry.1).isNone)
      = members.filter fun entry => !jobKeys.contains entry.1 := by
    refine List.filter_congr fun entry _ => ?_
    rw [Bool.eq_iff_iff, Option.isNone_iff_eq_none, field?_jobRecord]
    simp
  rw [jobEntries, Json.collapseMembers_eq, Keyed.ofList, List.foldl_map, ← hkeys]
  refine h.rest (by simp [jobRecord, Json.Field.of, Codec.spares_map]) rfl ?_
  intro key v fill hfill draft
  obtain ⟨_, hv, rfl⟩ := Codec.map_ofJson_eq_ok.mp hfill
  cases hv
  rfl

theorem jobRecord_eq_ok {v : Json} {job : Job} :
    jobRecord.ofJson v = .ok job ↔ ∃ members, v = .object members ∧ ∃ entity offset interval,
        Codec.any.Finds (Keyed.all "entity_name" members) (some entity)
        ∧ Codec.number.Finds (Keyed.all "offset" members) (some offset)
        ∧ Codec.number?.Finds (Keyed.all "interval" members) interval
        ∧ (⟨entity, offset, interval.join, jobEntries members⟩ : Job) = job := by
  refine (Record.ofJson_object rfl).trans ⟨?_, ?_⟩
  · rintro ⟨members, draft, hv, htakes, hfinish⟩
    obtain ⟨entity, hentity, hfinish⟩ := bind_eq_ok.mp hfinish
    obtain ⟨offset, hoffset, hfinish⟩ := bind_eq_ok.mp hfinish
    rw [entries_eq htakes] at hfinish
    exact ⟨members, hv, entity, offset, draft.interval,
      (JobDraft.entity_place.require_iff htakes).mp hentity,
      (JobDraft.offset_place.require_iff htakes).mp hoffset,
      JobDraft.interval_place.finds htakes, pure_eq_ok.mp hfinish⟩
  · rintro ⟨members, hv, entity, offset, interval, hentity, hoffset, hinterval, rfl⟩
    obtain ⟨draft, htakes⟩ := JobDraft.placed.takes (List.forall_mem_cons.mpr
      ⟨⟨_, hentity.map _⟩, List.forall_mem_cons.mpr ⟨⟨_, hoffset.map _⟩,
        List.forall_mem_singleton.mpr ⟨_, hinterval.map _⟩⟩⟩)
    cases hinterval.unique (JobDraft.interval_place.finds htakes)
    refine ⟨members, draft, hv, htakes, ?_⟩
    rw [← entries_eq htakes]
    exact bind_eq_ok.mpr ⟨entity, (JobDraft.entity_place.require_iff htakes).mpr hentity,
      bind_eq_ok.mpr ⟨offset, (JobDraft.offset_place.require_iff htakes).mpr hoffset, rfl⟩⟩

namespace LaunchDraft

theorem scenario_place : launchRecord.Place "scenario_name" .any (·.scenario) :=
  ⟨rfl, ⟨_, _, rfl, fun _ _ => rfl⟩,
    by simp [launchRecord, Json.Field.of, Codec.spares_map], nofun⟩

theorem arguments_place : launchRecord.Place "arguments" .members (·.arguments) :=
  ⟨rfl, ⟨_, _, rfl, fun _ _ => rfl⟩,
    by simp [launchRecord, Json.Field.of, Codec.spares_map], nofun⟩

theorem placed : launchRecord.Placed := by
  refine ⟨by decide, List.forall_mem_cons.mpr ⟨⟨_, _, _, scenario_place⟩,
    List.forall_mem_singleton.mpr ⟨_, _, _, arguments_place⟩⟩, nofun, ?_⟩
  intro draft launch hlaunch
  obtain ⟨scenario, hscenario, -⟩ := bind_eq_ok.mp hlaunch
  simp [launchRecord, Json.Field.of, Record.require_eq_ok.mp hscenario]

end LaunchDraft

theorem launchRecord_eq_ok {v : Json} {launch : Json × Members} :
    launchRecord.ofJson v = .ok launch ↔ ∃ members,
      Spells ["scenario_name", "arguments"] v members ∧ ∃ scenario arguments,
        Codec.any.Finds (Keyed.all "scenario_name" members) (some scenario)
        ∧ Codec.members.Finds (Keyed.all "arguments" members) arguments
        ∧ (scenario, arguments.getD []) = launch := by
  refine (LaunchDraft.placed.ofJson_positional rfl).trans ⟨?_, ?_⟩
  · rintro ⟨members, draft, hspells, htakes, hfinish⟩
    obtain ⟨scenario, hscenario, hfinish⟩ := bind_eq_ok.mp hfinish
    exact ⟨members, hspells, scenario, draft.arguments,
      (LaunchDraft.scenario_place.require_iff htakes).mp hscenario,
      LaunchDraft.arguments_place.finds htakes, pure_eq_ok.mp hfinish⟩
  · rintro ⟨members, hspells, scenario, arguments, hscenario, harguments, rfl⟩
    obtain ⟨draft, htakes⟩ := LaunchDraft.placed.takes (List.forall_mem_cons.mpr
      ⟨⟨_, hscenario.map _⟩, List.forall_mem_singleton.mpr ⟨_, harguments.map _⟩⟩)
    cases harguments.unique (LaunchDraft.arguments_place.finds htakes)
    exact ⟨members, draft, hspells, htakes,
      bind_eq_ok.mpr ⟨scenario, (LaunchDraft.scenario_place.require_iff htakes).mpr hscenario, rfl⟩⟩

namespace BodiesDraft

variable {name first second : String}

theorem condition_place : (bodiesRecord name first second).Place "condition" .any (·.condition) :=
  ⟨rfl, ⟨_, _, rfl, fun _ _ => rfl⟩,
    by simp [bodiesRecord, Json.Field.of, Codec.spares_map], nofun⟩

variable (honce : ["condition", first, second].Nodup)

include honce

theorem first_place : (bodiesRecord name first second).Place first (.list .index) (·.first) := by
  have hfield : (bodiesRecord name first second).field? first = some (.of first false
      (.list .index) (·.first) fun ns d => { d with first := some ns }) := by
    simp at honce
    simp [Record.field?, bodiesRecord, Json.Field.of, honce.1.1]
  exact ⟨rfl, ⟨_, _, hfield, fun _ _ => rfl⟩,
    by simp [bodiesRecord, Json.Field.of, Codec.spares_map], nofun⟩

theorem second_place : (bodiesRecord name first second).Place second (.list .index) (·.second) := by
  have hfield : (bodiesRecord name first second).field? second = some (.of second false
      (.list .index) (·.second) fun ns d => { d with second := some ns }) := by
    simp at honce
    simp [Record.field?, bodiesRecord, Json.Field.of, honce.1.2, honce.2]
  exact ⟨rfl, ⟨_, _, hfield, fun _ _ => rfl⟩,
    by simp [bodiesRecord, Json.Field.of, Codec.spares_map], nofun⟩

theorem placed : (bodiesRecord name first second).Placed := by
  refine ⟨honce, List.forall_mem_cons.mpr ⟨⟨_, _, _, condition_place⟩, List.forall_mem_cons.mpr
    ⟨⟨_, _, _, first_place honce⟩, List.forall_mem_singleton.mpr ⟨_, _, _, second_place honce⟩⟩⟩,
    nofun, ?_⟩
  intro draft bodies hbodies
  obtain ⟨condition, hcondition, -⟩ := bind_eq_ok.mp hbodies
  simp [bodiesRecord, Json.Field.of, Record.require_eq_ok.mp hcondition]

end BodiesDraft

theorem bodiesRecord_eq_ok {name first second : String}
    (honce : ["condition", first, second].Nodup) {v : Json} {bodies : Json × List Nat × List Nat} :
    (bodiesRecord name first second).ofJson v = .ok bodies ↔ ∃ members,
      Spells ["condition", first, second] v members ∧ ∃ condition whenFirst whenSecond,
        Codec.any.Finds (Keyed.all "condition" members) (some condition)
        ∧ Codec.index.list.Finds (Keyed.all first members) whenFirst
        ∧ Codec.index.list.Finds (Keyed.all second members) whenSecond
        ∧ (condition, whenFirst.getD [], whenSecond.getD []) = bodies := by
  have hplaced : (bodiesRecord name first second).Placed := BodiesDraft.placed honce
  refine (hplaced.ofJson_positional rfl).trans ⟨?_, ?_⟩
  · rintro ⟨members, draft, hspells, htakes, hfinish⟩
    obtain ⟨condition, hcondition, hfinish⟩ := bind_eq_ok.mp hfinish
    exact ⟨members, hspells, condition, draft.first, draft.second,
      (BodiesDraft.condition_place.require_iff htakes).mp hcondition,
      (BodiesDraft.first_place honce).finds htakes, (BodiesDraft.second_place honce).finds htakes,
      pure_eq_ok.mp hfinish⟩
  · rintro ⟨members, hspells, condition, whenFirst, whenSecond, hcondition, hfirst, hsecond, rfl⟩
    obtain ⟨draft, htakes⟩ := hplaced.takes (List.forall_mem_cons.mpr
      ⟨⟨_, hcondition.map _⟩, List.forall_mem_cons.mpr ⟨⟨_, hfirst.map _⟩,
        List.forall_mem_singleton.mpr ⟨_, hsecond.map _⟩⟩⟩)
    cases hfirst.unique ((BodiesDraft.first_place honce).finds htakes)
    cases hsecond.unique ((BodiesDraft.second_place honce).finds htakes)
    refine ⟨members, draft, hspells, htakes, bind_eq_ok.mpr ⟨condition, ?_, rfl⟩⟩
    exact (BodiesDraft.condition_place.require_iff htakes).mpr hcondition

/-! ### Functions -/

theorem ofTag?_tag (kind : Kind) : Kind.ofTag? kind.tag = some kind := by
  cases kind <;> rfl

theorem ofTag?_eq_some {key : String} {kind : Kind} :
    Kind.ofTag? key = some kind ↔ kind.tag = key := by
  refine ⟨?_, ?_⟩
  · intro h
    simpa using List.find?_some h
  · rintro rfl
    exact ofTag?_tag kind

/-- The first member that is named after a kind, as the kind and the value. -/
def kindMember? (members : Members) : Option (Kind × Json) :=
  members.findSome? fun entry => (Kind.ofTag? entry.1).map fun kind => (kind, entry.2)

theorem kindMember?_iff_append {members : Members} {kind : Kind} {payload : Json} :
    kindMember? members = some (kind, payload) ↔ ∃ before after,
      members = before ++ (kind.tag, payload) :: after
        ∧ ∀ other : Kind, other.tag ∉ Keyed.keys before := by
  unfold kindMember?
  rw [List.findSome?_eq_some_iff]
  refine ⟨?_, ?_⟩
  · rintro ⟨before, ⟨key, v⟩, after, hmembers, hkey, hbefore⟩
    obtain ⟨_, hkind, heq⟩ := Option.map_eq_some_iff.mp hkey
    cases heq
    refine ⟨before, after, ofTag?_eq_some.mp hkind ▸ hmembers, fun other hother => ?_⟩
    obtain ⟨entry, hentry, htag⟩ := List.mem_map.mp hother
    have hnone := hbefore entry hentry
    rw [htag, ofTag?_tag] at hnone
    cases hnone
  · rintro ⟨before, after, hmembers, hbefore⟩
    refine ⟨before, _, after, hmembers, by simp [ofTag?_tag], fun entry hentry => ?_⟩
    cases hkind : Kind.ofTag? entry.1 with
    | none => rfl
    | some other =>
        have hmem : entry.1 ∈ Keyed.keys before := List.mem_map_of_mem hentry
        exact absurd (ofTag?_eq_some.mp hkind ▸ hmem) (hbefore other)

theorem mem_of_kindMember? {members : Members} {kind : Kind} {payload : Json}
    (h : kindMember? members = some (kind, payload)) : (kind.tag, payload) ∈ members := by
  obtain ⟨before, after, rfl, -⟩ := kindMember?_iff_append.mp h
  exact List.mem_append_right _ List.mem_cons_self

/-- The kind that the first key named after a kind stands for. -/
def leadingKind? (members : Members) : Option Kind := (Keyed.keys members).findSome? Kind.ofTag?

theorem kindMember?_eq (members : Members) : kindMember? members
    = (leadingKind? members).bind fun kind =>
        (Keyed.get? kind.tag members).map fun payload => (kind, payload) := by
  induction members with
  | nil => rfl
  | cons entry rest ih =>
      obtain ⟨key, v⟩ := entry
      unfold kindMember? leadingKind? at ih ⊢
      rw [Keyed.keys, List.map_cons, List.findSome?_cons, List.findSome?_cons]
      cases hkind : Kind.ofTag? key with
      | some kind =>
          have htag : key = kind.tag := (ofTag?_eq_some.mp hkind).symm
          simp [Keyed.get?, htag]
      | none =>
          refine ih.trans (Option.bind_congr fun kind _ => ?_)
          have hne : key ≠ kind.tag := by
            rintro rfl
            rw [ofTag?_tag] at hkind
            cases hkind
          rw [Keyed.get?, if_neg hne]

theorem kindMember?_iff_leading {members : Members} {kind : Kind} {payload : Json} :
    kindMember? members = some (kind, payload)
      ↔ leadingKind? members = some kind ∧ Keyed.get? kind.tag members = some payload := by
  rw [kindMember?_eq]
  cases leadingKind? members with
  | none => simp
  | some leading =>
      simp only [Option.bind_some, Option.map_eq_some_iff, Option.some.injEq, Prod.mk.injEq]
      refine ⟨?_, ?_⟩
      · rintro ⟨_, hpayload, rfl, rfl⟩
        exact ⟨rfl, hpayload⟩
      · rintro ⟨rfl, hpayload⟩
        exact ⟨payload, hpayload, rfl, rfl⟩

theorem Action.ofMembers_eq_ok {members : Members} {a : Action} :
    Action.ofMembers members = .ok a ↔ ∃ kind payload,
      kindMember? members = some (kind, payload) ∧ Action.ofPayload kind payload = .ok a := by
  induction members with
  | nil => simp [Action.ofMembers, kindMember?]
  | cons entry rest ih =>
      obtain ⟨key, v⟩ := entry
      rw [Action.ofMembers, kindMember?, List.findSome?_cons]
      cases hkind : Kind.ofTag? key with
      | some kind => simp
      | none => exact ih

/-- No kind is a fixed key of a function. -/
theorem field?_tag (kind : Kind) : functionRecord.field? kind.tag = none := by
  cases kind <;> rfl

/-- The keys of the fields are passed over in the search for a kind. -/
theorem kindMember?_filter (members : Members) :
    kindMember? (members.filter fun entry => (functionRecord.field? entry.1).isNone)
      = kindMember? members := by
  induction members with
  | nil => rfl
  | cons entry rest ih =>
      obtain ⟨key, v⟩ := entry
      unfold kindMember? at ih ⊢
      cases hkind : Kind.ofTag? key with
      | some kind =>
          have hkey : functionRecord.field? key = none :=
            ofTag?_eq_some.mp hkind ▸ field?_tag kind
          rw [List.filter_cons_of_pos (by simp [hkey])]
          simp [hkind]
      | none =>
          rw [List.filter_cons, List.findSome?_cons]
          split
          · rw [List.findSome?_cons]
            simpa [hkind] using ih
          · simpa [hkind] using ih

namespace FunctionDraft

theorem id_place : functionRecord.Place "id" .index (·.id) :=
  ⟨rfl, ⟨_, _, rfl, fun _ _ => rfl⟩, by simp [functionRecord, Json.Field.of, Codec.spares_map],
    by simp [functionRecord, Codec.spares_map]⟩

theorem label_place : functionRecord.Place "label" .string (·.label) :=
  ⟨rfl, ⟨_, _, rfl, fun _ _ => rfl⟩, by simp [functionRecord, Json.Field.of, Codec.spares_map],
    by simp [functionRecord, Codec.spares_map]⟩

theorem wait_place : functionRecord.Place "wait" waitRecord.codec (·.wait) :=
  ⟨rfl, ⟨_, _, rfl, fun _ _ => rfl⟩, by simp [functionRecord, Json.Field.of, Codec.spares_map],
    by simp [functionRecord, Codec.spares_map]⟩

theorem failure_place : functionRecord.Place "on_fail" failureRecord.codec (·.failure) :=
  ⟨rfl, ⟨_, _, rfl, fun _ _ => rfl⟩, by simp [functionRecord, Json.Field.of, Codec.spares_map],
    by simp [functionRecord, Codec.spares_map]⟩

theorem placed : functionRecord.Placed := by
  refine ⟨by decide, List.forall_mem_cons.mpr ⟨⟨_, _, _, id_place⟩, List.forall_mem_cons.mpr
    ⟨⟨_, _, _, label_place⟩, List.forall_mem_cons.mpr ⟨⟨_, _, _, wait_place⟩,
      List.forall_mem_singleton.mpr ⟨_, _, _, failure_place⟩⟩⟩⟩, ?_, ?_⟩
  · rintro other ⟨⟩ key v
    exact ⟨_, rfl⟩
  · intro draft f hf
    obtain ⟨id, hid, hf⟩ := bind_eq_ok.mp hf
    obtain ⟨label, hlabel, -⟩ := bind_eq_ok.mp hf
    simp [functionRecord, Json.Field.of, Record.require_eq_ok.mp hid,
      Record.require_eq_ok.mp hlabel]

end FunctionDraft

theorem others_eq {members : Members} {draft : FunctionDraft}
    (h : functionRecord.Takes functionRecord.blank members draft) :
    draft.others = members.filter fun entry => (functionRecord.field? entry.1).isNone := by
  have happend : ∀ rest : Members, rest.foldl (fun found entry => found ++ [entry]) [] = rest := by
    intro rest
    rw [List.foldl_append_eq_append, ← List.flatMap_def, List.flatMap_singleton', List.nil_append]
  rw [← happend (members.filter _)]
  refine h.rest (by simp [functionRecord, Json.Field.of, Codec.spares_map]) rfl ?_
  intro key v fill hfill draft
  obtain ⟨_, hv, rfl⟩ := Codec.map_ofJson_eq_ok.mp hfill
  cases hv
  rfl

theorem functionRecord_eq_ok {v : Json} {f : Function} :
    functionRecord.ofJson v = .ok f ↔ ∃ members, v = .object members
      ∧ ∃ id label wait failure kind payload action,
        Codec.index.Finds (Keyed.all "id" members) (some id)
        ∧ Codec.string.Finds (Keyed.all "label" members) (some label)
        ∧ waitRecord.codec.Finds (Keyed.all "wait" members) wait
        ∧ failureRecord.codec.Finds (Keyed.all "on_fail" members) failure
        ∧ kindMember? members = some (kind, payload) ∧ Action.ofPayload kind payload = .ok action
        ∧ (⟨id, label, action, wait.getD .immediate⟩ : Function) = f := by
  refine (Record.ofJson_object rfl).trans ⟨?_, ?_⟩
  · rintro ⟨members, draft, hv, htakes, hfinish⟩
    obtain ⟨id, hid, hfinish⟩ := bind_eq_ok.mp hfinish
    obtain ⟨label, hlabel, hfinish⟩ := bind_eq_ok.mp hfinish
    obtain ⟨action, haction, hfinish⟩ := bind_eq_ok.mp hfinish
    rw [others_eq htakes] at haction
    obtain ⟨kind, payload, hkind, haction⟩ := Action.ofMembers_eq_ok.mp haction
    rw [kindMember?_filter] at hkind
    exact ⟨members, hv, id, label, draft.wait, draft.failure, kind, payload, action,
      (FunctionDraft.id_place.require_iff htakes).mp hid,
      (FunctionDraft.label_place.require_iff htakes).mp hlabel,
      FunctionDraft.wait_place.finds htakes, FunctionDraft.failure_place.finds htakes, hkind,
      haction, pure_eq_ok.mp hfinish⟩
  · rintro ⟨members, hv, id, label, wait, failure, kind, payload, action, hid, hlabel, hwait,
      hfailure, hkind, haction, rfl⟩
    obtain ⟨draft, htakes⟩ := FunctionDraft.placed.takes (List.forall_mem_cons.mpr
      ⟨⟨_, hid.map _⟩, List.forall_mem_cons.mpr ⟨⟨_, hlabel.map _⟩, List.forall_mem_cons.mpr
        ⟨⟨_, hwait.map _⟩, List.forall_mem_singleton.mpr ⟨_, hfailure.map _⟩⟩⟩⟩)
    cases hwait.unique (FunctionDraft.wait_place.finds htakes)
    rw [← kindMember?_filter, ← others_eq htakes] at hkind
    refine ⟨members, draft, hv, htakes, ?_⟩
    refine bind_eq_ok.mpr ⟨id, ?_, bind_eq_ok.mpr ⟨label, ?_, bind_eq_ok.mpr ⟨action, ?_, rfl⟩⟩⟩
    · exact (FunctionDraft.id_place.require_iff htakes).mpr hid
    · exact (FunctionDraft.label_place.require_iff htakes).mpr hlabel
    · exact Action.ofMembers_eq_ok.mpr ⟨kind, payload, hkind, haction⟩

/-! ### Documents -/

namespace Draft

theorem name_place : record.Place "name" .string (·.name) :=
  ⟨rfl, ⟨_, _, rfl, fun _ _ => rfl⟩, by simp [record, Json.Field.of, Codec.spares_map], nofun⟩

theorem description_place : record.Place "description" .string (·.description) :=
  ⟨rfl, ⟨_, _, rfl, fun _ _ => rfl⟩, by simp [record, Json.Field.of, Codec.spares_map], nofun⟩

theorem arguments_place : record.Place "arguments" .members (·.arguments) :=
  ⟨rfl, ⟨_, _, rfl, fun _ _ => rfl⟩, by simp [record, Json.Field.of, Codec.spares_map], nofun⟩

theorem constants_place : record.Place "constants" .members (·.constants) :=
  ⟨rfl, ⟨_, _, rfl, fun _ _ => rfl⟩, by simp [record, Json.Field.of, Codec.spares_map], nofun⟩

theorem functions_place :
    record.Place "openbach_functions" (.list functionRecord.codec) (·.functions) :=
  ⟨rfl, ⟨_, _, rfl, fun _ _ => rfl⟩, by simp [record, Json.Field.of, Codec.spares_map], nofun⟩

theorem placed : record.Placed := by
  refine ⟨by decide, List.forall_mem_cons.mpr ⟨⟨_, _, _, name_place⟩, List.forall_mem_cons.mpr
    ⟨⟨_, _, _, description_place⟩, List.forall_mem_cons.mpr ⟨⟨_, _, _, arguments_place⟩,
      List.forall_mem_cons.mpr ⟨⟨_, _, _, constants_place⟩,
        List.forall_mem_singleton.mpr ⟨_, _, _, functions_place⟩⟩⟩⟩⟩, nofun, ?_⟩
  intro draft d hd
  obtain ⟨name, hname, -⟩ := bind_eq_ok.mp hd
  simp [record, Json.Field.of, Record.require_eq_ok.mp hname]

end Draft

theorem ofJson_eq_ok {v : Json} {d : Document} :
    ofJson v = .ok d ↔ ∃ members,
      Spells ["name", "description", "arguments", "constants", "openbach_functions"] v members
      ∧ ∃ name description arguments constants functions,
        Codec.string.Finds (Keyed.all "name" members) (some name)
        ∧ Codec.string.Finds (Keyed.all "description" members) description
        ∧ Codec.members.Finds (Keyed.all "arguments" members) arguments
        ∧ Codec.members.Finds (Keyed.all "constants" members) constants
        ∧ functionRecord.codec.list.Finds (Keyed.all "openbach_functions" members) functions
        ∧ (⟨name, description.getD "", arguments.getD [], constants.getD [],
          functions.getD []⟩ : Document) = d := by
  refine (Draft.placed.ofJson_positional rfl).trans ⟨?_, ?_⟩
  · rintro ⟨members, draft, hspells, htakes, hfinish⟩
    obtain ⟨name, hname, hfinish⟩ := bind_eq_ok.mp hfinish
    exact ⟨members, hspells, name, draft.description, draft.arguments, draft.constants,
      draft.functions, (Draft.name_place.require_iff htakes).mp hname,
      Draft.description_place.finds htakes, Draft.arguments_place.finds htakes,
      Draft.constants_place.finds htakes, Draft.functions_place.finds htakes,
      pure_eq_ok.mp hfinish⟩
  · rintro ⟨members, hspells, name, description, arguments, constants, functions, hname,
      hdescription, harguments, hconstants, hfunctions, rfl⟩
    obtain ⟨draft, htakes⟩ := Draft.placed.takes (List.forall_mem_cons.mpr
      ⟨⟨_, hname.map _⟩, List.forall_mem_cons.mpr ⟨⟨_, hdescription.map _⟩,
        List.forall_mem_cons.mpr ⟨⟨_, harguments.map _⟩, List.forall_mem_cons.mpr
          ⟨⟨_, hconstants.map _⟩, List.forall_mem_singleton.mpr ⟨_, hfunctions.map _⟩⟩⟩⟩⟩)
    cases hdescription.unique (Draft.description_place.finds htakes)
    cases harguments.unique (Draft.arguments_place.finds htakes)
    cases hconstants.unique (Draft.constants_place.finds htakes)
    cases hfunctions.unique (Draft.functions_place.finds htakes)
    exact ⟨members, draft, hspells, htakes,
      bind_eq_ok.mpr ⟨name, (Draft.name_place.require_iff htakes).mpr hname, rfl⟩⟩

end Testbed.Document

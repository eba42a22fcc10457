/-
Reading back the wire form of documents.

The wire form has two places in which keys that are chosen by somebody stand beside fixed
ones: the job of a payload beside the settings of its start, and the kind of a function
beside its number, label and wait.  No kind is one of the fixed keys of a function, and the
entries of a canonical document stay away from the fixed keys of a job.  So every member is
found again where it was put, and a canonical document is read back as it was.

Whatever is read from a value is canonical: tables that are read have each key once, and
what stands in a job under a fixed key is not an entry.
-/
import Testbed.Proofs.Document.Records
import Testbed.Proofs.Document.Wire

namespace Testbed.Document

open Json (Codec Record Proper KeysOnce)
open Outcome

variable {ok : Number → Prop}

/-- The wire form of a document has each key once, and the entries of its jobs are told apart from
the fixed keys. -/
structure Canonical (ok : Number → Prop) (d : Document) : Prop where
  proper : d.toJson.Proper ok
  apart : ∀ f ∈ d.functions, ∀ job, f.action = .startJob job → job.Apart

/-! ### Payloads -/

section Job

variable {j : Job} (h : j.Apart)

include h

/-- Under a fixed key of a job there is only what was put there. -/
theorem all_toMembers {key : String} (hkey : key ∈ jobKeys) :
    Keyed.all key j.toMembers = Keyed.all key j.fixedMembers := by
  have hnone : Keyed.all key j.entries = [] := by
    rw [Keyed.all_of_nodup h.once, Keyed.get?_eq_none_iff.mpr fun hmem => h.free key hmem hkey]
    rfl
  rw [h.toMembers_eq, Keyed.all_append, hnone, List.append_nil]

/-- Beside the fixed keys of a job there are its entries. -/
theorem jobEntries_toMembers (hproper : (Json.object j.toMembers).Proper ok) :
    jobEntries j.toMembers = j.entries := by
  have hentries : Json.collapseMembers j.entries = j.entries := by
    refine Json.collapseMembers_of_forall fun entry hentry => ?_
    rw [h.toMembers_eq] at hproper
    exact (hproper.member (List.mem_append_right _ hentry)).collapse_eq
  have hfixed : (j.fixedMembers.filter fun entry => !jobKeys.contains entry.1) = [] := by
    refine List.filter_eq_nil_iff.mpr fun entry hentry => ?_
    have hkey := Job.mem_keys_fixedMembers (Keyed.mem_keys_of_mem hentry)
    simpa using hkey
  have hfree : (j.entries.filter fun entry => !jobKeys.contains entry.1) = j.entries := by
    refine List.filter_eq_self.mpr fun entry hentry => ?_
    have hkey := h.free entry.1 (Keyed.mem_keys_of_mem hentry)
    simpa using hkey
  rw [jobEntries, h.toMembers_eq, List.filter_append, hfixed, hfree, List.nil_append, hentries,
    Keyed.ofList_of_nodup h.once]

/-- **A job is read back if its entries are told apart.** -/
theorem jobRecord_ofJson (hproper : (Json.object j.toMembers).Proper ok) :
    jobRecord.ofJson (.object j.toMembers) = .ok j := by
  have hentity : Codec.any.ofJson j.entity = .ok j.entity := by
    have hmem : ("entity_name", j.entity) ∈ j.toMembers := by
      rw [h.toMembers_eq]
      exact List.mem_append_left _ List.mem_cons_self
    exact Codec.any_ofJson_of_proper (hproper.member hmem)
  obtain ⟨entity, offset, interval, entries⟩ := j
  refine jobRecord_eq_ok.mpr ⟨_, rfl, entity, offset, interval.map some, ?_, ?_, ?_, ?_⟩
  · rw [all_toMembers h (by decide)]
    cases interval <;> exact .one hentity
  · rw [all_toMembers h (by decide)]
    cases interval <;> exact .one rfl
  · rw [all_toMembers h (by decide)]
    cases interval with
    | none => exact .nothing
    | some interval => exact .one rfl
  · rw [jobEntries_toMembers h hproper]
    cases interval <;> rfl

end Job

theorem launchRecord_ofJson {scenario : Json} {arguments : Members} (hscenario : scenario.Proper ok)
    (harguments : (Json.object arguments).Proper ok) :
    launchRecord.ofJson (.object [("scenario_name", scenario), ("arguments", .object arguments)])
      = .ok (scenario, arguments) :=
  launchRecord_eq_ok.mpr ⟨_, .object _, scenario, some arguments,
    .one (Codec.any_ofJson_of_proper hscenario),
    .one (Codec.members_ofJson_of_proper harguments), rfl⟩

theorem bodiesRecord_ofJson {name first second : String}
    (honce : ["condition", first, second].Nodup) {condition : Json}
    (hcondition : condition.Proper ok) (whenFirst whenSecond : List Nat) :
    (bodiesRecord name first second).ofJson (.object [("condition", condition),
      (first, .ofNats whenFirst), (second, .ofNats whenSecond)])
      = .ok (condition, whenFirst, whenSecond) := by
  obtain ⟨⟨hfirst, hsecond⟩, hapart⟩ : (first ≠ "condition" ∧ second ≠ "condition")
      ∧ second ≠ first := by
    simpa [eq_comm] using honce
  refine (bodiesRecord_eq_ok honce).mpr ⟨_, .object _, condition, some whenFirst, some whenSecond,
    ?_, ?_, ?_, rfl⟩
  · rw [Keyed.all_cons_self, Keyed.all_cons_ne hfirst, Keyed.all_cons_ne hsecond]
    exact .one (Codec.any_ofJson_of_proper hcondition)
  · rw [Keyed.all_cons_ne hfirst.symm, Keyed.all_cons_self, Keyed.all_cons_ne hapart]
    exact .one (Codec.list_index_ofNats whenFirst)
  · rw [Keyed.all_cons_ne hsecond.symm, Keyed.all_cons_ne hapart.symm, Keyed.all_cons_self]
    exact .one (Codec.list_index_ofNats whenSecond)

theorem Single.ofJson {α : Type} {r : Record (Option α) α} {key : String} {c : Codec α}
    (h : Single r key c) {v : Json} {a : α} (ha : c.ofJson v = .ok a) :
    r.ofJson (.object [(key, v)]) = .ok a :=
  h.ofJson_eq_ok.mpr ⟨_, .object _, by rw [Keyed.all_cons_self]; exact .one ha⟩

/-- **The payload of an action is read back as the action.** -/
theorem Action.ofPayload_payload {a : Action} (hproper : a.payload.Proper ok)
    (hapart : ∀ job, a = .startJob job → job.Apart) :
    Action.ofPayload a.kind a.payload = .ok a := by
  cases a with
  | startJob job => exact map_eq_ok.mpr ⟨job, jobRecord_ofJson (hapart job rfl) hproper, rfl⟩
  | stopJob target =>
      exact map_eq_ok.mpr ⟨target, stopRecord_single.ofJson (Codec.index_ofNat target), rfl⟩
  | stopJobs targets =>
      exact map_eq_ok.mpr
        ⟨targets, stopsRecord_single.ofJson (Codec.list_index_ofNats targets), rfl⟩
  | startScenario scenario arguments =>
      have hscenario : scenario.Proper ok := hproper.member List.mem_cons_self
      have harguments : (Json.object arguments).Proper ok :=
        hproper.member (List.mem_cons_of_mem _ List.mem_cons_self)
      have hread := launchRecord_ofJson hscenario harguments
      simp only [kind, payload, ofPayload, hread]
      rfl
  | stopScenario target =>
      exact map_eq_ok.mpr ⟨target, stopRecord_single.ofJson (Codec.index_ofNat target), rfl⟩
  | reboot entity =>
      have hentity : entity.Proper ok := hproper.member List.mem_cons_self
      exact map_eq_ok.mpr
        ⟨entity, rebootRecord_single.ofJson (Codec.any_ofJson_of_proper hentity), rfl⟩
  | branch condition whenTrue whenFalse =>
      have hcondition : condition.Proper ok := hproper.member List.mem_cons_self
      exact map_eq_ok.mpr
        ⟨_, bodiesRecord_ofJson (by decide) hcondition whenTrue whenFalse, rfl⟩
  | loop condition eachRound atEnd =>
      have hcondition : condition.Proper ok := hproper.member List.mem_cons_self
      exact map_eq_ok.mpr ⟨_, bodiesRecord_ofJson (by decide) hcondition eachRound atEnd, rfl⟩

/-! ### Functions -/

theorem waitRecord_ofJson (w : Wait) : waitRecord.ofJson w.toJson = .ok w :=
  waitRecord_eq_ok.mpr ⟨_, .object _, w.time, some w.launched, some w.finished, .one rfl,
    .one (Codec.list_index_ofNats _), .one (Codec.list_index_ofNats _), rfl⟩

/-- Under the fixed keys of a function its action does not stand. -/
theorem all_toJson {f : Function} {key : String} (hkey : key ∈ ["id", "label", "wait", "on_fail"]) :
    Keyed.all key [("id", .ofNat f.id), ("label", .string f.label), f.action.toMember,
        ("wait", f.wait.toJson), ("on_fail", .object [])]
      = Keyed.all key [("id", .ofNat f.id), ("label", .string f.label), ("wait", f.wait.toJson),
        ("on_fail", .object [])] := by
  have hne : f.action.kind.tag ≠ key := by
    rintro rfl
    revert hkey
    cases f.action.kind <;> decide
  show Keyed.all key ([("id", .ofNat f.id), ("label", .string f.label)]
    ++ (f.action.kind.tag, f.action.payload) :: _) = _
  rw [Keyed.all_append, Keyed.all_cons_ne hne, ← Keyed.all_append]
  rfl

/-- A function is read back if its action is. -/
theorem functionRecord_ofJson {f : Function}
    (haction : Action.ofPayload f.action.kind f.action.payload = .ok f.action) :
    functionRecord.ofJson f.toJson = .ok f := by
  have hkind : kindMember? [("id", .ofNat f.id), ("label", .string f.label), f.action.toMember,
      ("wait", f.wait.toJson), ("on_fail", .object [])]
      = some (f.action.kind, f.action.payload) := by
    refine kindMember?_iff_append.mpr
      ⟨[("id", .ofNat f.id), ("label", .string f.label)], _, rfl, fun other => ?_⟩
    cases other <;> simp [Keyed.keys, Kind.tag]
  refine functionRecord_eq_ok.mpr ⟨_, rfl, f.id, f.label, some f.wait, some (), f.action.kind,
    f.action.payload, f.action, ?_, ?_, ?_, ?_, hkind, haction, rfl⟩
  · rw [all_toJson (by decide)]
    exact .one (Codec.index_ofNat f.id)
  · rw [all_toJson (by decide)]
    exact .one rfl
  · rw [all_toJson (by decide)]
    exact .one (waitRecord_ofJson f.wait)
  · rw [all_toJson (by decide)]
    exact .one rfl

/-! ### Documents -/

namespace Canonical

variable {d : Document}

/-- What stands in the wire form is proper. -/
theorem member (h : d.Canonical ok) (key : String) {v : Json}
    (hv : (key, v) ∈ [("name", Json.string d.name), ("description", .string d.description),
      ("arguments", .object d.arguments), ("constants", .object d.constants),
      ("openbach_functions", .array (d.functions.map Function.toJson))]) : v.Proper ok :=
  h.proper.member hv

theorem arguments (h : d.Canonical ok) : (Json.object d.arguments).Proper ok :=
  h.member "arguments" (by simp)

theorem constants (h : d.Canonical ok) : (Json.object d.constants).Proper ok :=
  h.member "constants" (by simp)

theorem function (h : d.Canonical ok) {f : Function} (hf : f ∈ d.functions) :
    f.toJson.Proper ok :=
  (h.member "openbach_functions" (by simp)).items _ (List.mem_map_of_mem hf)

theorem action (h : d.Canonical ok) {f : Function} (hf : f ∈ d.functions) :
    Action.ofPayload f.action.kind f.action.payload = .ok f.action := by
  have hmem : (f.action.kind.tag, f.action.payload) ∈ [("id", Json.ofNat f.id),
      ("label", .string f.label), f.action.toMember, ("wait", f.wait.toJson),
      ("on_fail", .object [])] := by
    simp [Action.toMember]
  exact Action.ofPayload_payload ((h.function hf).member hmem) (h.apart f hf)

/-- **A canonical document is read back as it was.** -/
theorem ofJson_toJson (h : d.Canonical ok) : Document.ofJson d.toJson = .ok d :=
  ofJson_eq_ok.mpr ⟨_, .object _, d.name, some d.description, some d.arguments, some d.constants,
    some d.functions, .one rfl, .one rfl, .one (Codec.members_ofJson_of_proper h.arguments),
    .one (Codec.members_ofJson_of_proper h.constants),
    .one (Codec.list_ofJson_map fun _ hf => functionRecord_ofJson (h.action hf)), rfl⟩

end Canonical

/-! ### What is read is canonical -/

/-- The values of an action have each key once, and the entries of a job are told apart. -/
structure Action.Clean (a : Action) : Prop where
  values : ∀ v ∈ a.values, v.KeysOnce
  apart : ∀ job, a = .startJob job → job.Apart

/-- An action that starts no job. -/
theorem Action.clean_of_values {a : Action} (hkind : a.kind ≠ .startJob)
    (h : ∀ v ∈ a.values, v.KeysOnce) : a.Clean := by
  refine ⟨h, ?_⟩
  rintro job rfl
  exact absurd rfl hkind

/-- What is found of any value has each key once. -/
theorem keysOnce_of_finds {vs : List Json} {v : Json} (h : Codec.any.Finds vs (some v)) :
    v.KeysOnce := by
  cases h with
  | one read => exact Codec.keysOnce_of_any read

/-- So have the members that are found, or none in their place. -/
theorem keysOnce_getD {vs : List Json} {found : Option Members}
    (h : Codec.members.Finds vs found) : (Json.object (found.getD [])).KeysOnce := by
  cases h with
  | nothing => exact Json.proper_empty
  | one read => exact Codec.keysOnce_of_members read

theorem clean_of_jobRecord {v : Json} {j : Job} (h : jobRecord.ofJson v = .ok j) :
    (Action.startJob j).Clean := by
  obtain ⟨members, -, entity, offset, interval, hentity, -, -, rfl⟩ := jobRecord_eq_ok.mp h
  have hentries : (Json.object (jobEntries members)).KeysOnce :=
    Json.keysOnce_collapse (.object (members.filter fun entry => !jobKeys.contains entry.1))
  refine ⟨List.forall_mem_cons.mpr ⟨keysOnce_of_finds hentity, ?_⟩, ?_⟩
  · intro w hw
    obtain ⟨entry, hentry, rfl⟩ := List.mem_map.mp hw
    exact hentries.member hentry
  · intro job hjob
    cases hjob
    refine ⟨hentries.keys, fun key hkey => ?_⟩
    rw [jobEntries, Keyed.mem_keys_ofList, Json.collapseMembers_eq, Keyed.keys_map] at hkey
    obtain ⟨entry, hentry, rfl⟩ := List.mem_map.mp hkey
    simpa using (List.mem_filter.mp hentry).2

theorem keysOnce_of_bodiesRecord {name first second : String}
    (honce : ["condition", first, second].Nodup) {v condition : Json}
    {whenFirst whenSecond : List Nat}
    (h : (bodiesRecord name first second).ofJson v = .ok (condition, whenFirst, whenSecond)) :
    condition.KeysOnce := by
  obtain ⟨members, -, _, _, _, hcondition, -, -, heq⟩ := (bodiesRecord_eq_ok honce).mp h
  cases heq
  exact keysOnce_of_finds hcondition

theorem keysOnce_of_launchRecord {v scenario : Json} {arguments : Members}
    (h : launchRecord.ofJson v = .ok (scenario, arguments)) :
    scenario.KeysOnce ∧ (Json.object arguments).KeysOnce := by
  obtain ⟨members, -, _, _, hscenario, harguments, heq⟩ := launchRecord_eq_ok.mp h
  cases heq
  exact ⟨keysOnce_of_finds hscenario, keysOnce_getD harguments⟩

/-- **Every action that is read has each key once, and its job is told apart.** -/
theorem Action.clean_of_ofPayload {kind : Kind} {payload : Json} {a : Action}
    (h : Action.ofPayload kind payload = .ok a) : a.Clean := by
  cases kind with
  | startJob =>
      obtain ⟨job, hjob, rfl⟩ := map_eq_ok.mp h
      exact clean_of_jobRecord hjob
  | stopJob =>
      obtain ⟨target, -, rfl⟩ := map_eq_ok.mp h
      exact clean_of_values (by simp [Action.kind]) (by simp [values])
  | stopJobs =>
      obtain ⟨targets, -, rfl⟩ := map_eq_ok.mp h
      exact clean_of_values (by simp [Action.kind]) (by simp [values])
  | startScenario =>
      obtain ⟨⟨scenario, arguments⟩, hlaunch, rfl⟩ := map_eq_ok.mp h
      obtain ⟨hscenario, harguments⟩ := keysOnce_of_launchRecord hlaunch
      exact clean_of_values (by simp [Action.kind]) (by simp [values, hscenario, harguments])
  | stopScenario =>
      obtain ⟨target, -, rfl⟩ := map_eq_ok.mp h
      exact clean_of_values (by simp [Action.kind]) (by simp [values])
  | reboot =>
      obtain ⟨entity, hentity, rfl⟩ := map_eq_ok.mp h
      obtain ⟨members, -, hfinds⟩ := rebootRecord_single.ofJson_eq_ok.mp hentity
      have hproper := keysOnce_of_finds hfinds
      exact clean_of_values (by simp [Action.kind]) (by simp [values, hproper])
  | branch =>
      obtain ⟨⟨condition, whenTrue, whenFalse⟩, hbodies, rfl⟩ := map_eq_ok.mp h
      have hcondition := keysOnce_of_bodiesRecord (by decide) hbodies
      exact clean_of_values (by simp [Action.kind]) (by simp [values, hcondition])
  | loop =>
      obtain ⟨⟨condition, eachRound, atEnd⟩, hbodies, rfl⟩ := map_eq_ok.mp h
      have hcondition := keysOnce_of_bodiesRecord (by decide) hbodies
      exact clean_of_values (by simp [Action.kind]) (by simp [values, hcondition])

/-- A function that is read from a value. -/
theorem Function.clean_of_ofJson {v : Json} {f : Function} (h : functionRecord.ofJson v = .ok f) :
    f.action.Clean := by
  obtain ⟨_, -, _, _, _, _, kind, payload, action, -, -, -, -, -, haction, rfl⟩ :=
    functionRecord_eq_ok.mp h
  exact Action.clean_of_ofPayload haction

/-- **Every document that is read is canonical.** -/
theorem canonical_of_ofJson {v : Json} {d : Document} (h : Document.ofJson v = .ok d) :
    d.Canonical fun _ => True := by
  obtain ⟨members, -, name, description, arguments, constants, functions, -, -, harguments,
    hconstants, hfunctions, rfl⟩ := ofJson_eq_ok.mp h
  have hclean : ∀ f ∈ functions.getD [], f.action.Clean := by
    intro f hf
    generalize Keyed.all "openbach_functions" members = vs at hfunctions
    cases hfunctions with
    | nothing => cases hf
    | one read =>
        obtain ⟨item, hitem⟩ := Codec.exists_of_mem_list read hf
        exact Function.clean_of_ofJson hitem
  refine ⟨proper_toJson (keysOnce_getD harguments) (keysOnce_getD hconstants) fun f hf => ?_,
    fun f hf => (hclean f hf).apart⟩
  refine Function.proper_toJson trivial ?_ (Wait.proper_toJson trivial fun _ _ => trivial)
  exact Action.proper_payload (hclean f hf).values (fun _ _ => trivial) fun _ _ => trivial

end Testbed.Document

/-
Documents that are read from like values.

Like values are read as like documents, record by record, with one exception.  Which action a
function has is decided by the first of its keys that is the name of a kind, and neither the order
of keys nor what becomes of a key that is repeated is the same in like values.  So of functions
two things are shown: that everything else in them is alike, and that their actions are alike if
the payloads are that they are read from.
-/
import Testbed.Proofs.Document.Records
import Testbed.Proofs.Json.Likeness

namespace Testbed.Document

open Json (AlikeMembers Codec Likeness Spells)
open Outcome

/-! ### Parts of documents that are alike -/

section Alike

variable (J : Json → Json → Prop) (N : Number → Number → Prop)

/-- Waits on the same functions, with like times. -/
structure Wait.Alike (a b : Wait) : Prop where
  time : N a.time b.time
  launched : a.launched = b.launched
  finished : a.finished = b.finished

/-- Jobs whose values and numbers are alike, place by place. -/
structure Job.Alike (a b : Job) : Prop where
  entity : J a.entity b.entity
  offset : N a.offset b.offset
  interval : Option.Rel N a.interval b.interval
  entries : J (.object a.entries) (.object b.entries)

/-- Actions of one kind, with the same numbers of functions and with like values. -/
inductive Action.Alike : Action → Action → Prop
  | startJob {a b : Job} (job : a.Alike J N b) : Alike (.startJob a) (.startJob b)
  | stopJob (target : Nat) : Alike (.stopJob target) (.stopJob target)
  | stopJobs (targets : List Nat) : Alike (.stopJobs targets) (.stopJobs targets)
  | startScenario {s t : Json} {a b : Members} (scenario : J s t)
      (arguments : J (.object a) (.object b)) : Alike (.startScenario s a) (.startScenario t b)
  | stopScenario (target : Nat) : Alike (.stopScenario target) (.stopScenario target)
  | reboot {a b : Json} (entity : J a b) : Alike (.reboot a) (.reboot b)
  | branch {c c' : Json} (condition : J c c') (whenTrue whenFalse : List Nat) :
      Alike (.branch c whenTrue whenFalse) (.branch c' whenTrue whenFalse)
  | loop {c c' : Json} (condition : J c c') (eachRound atEnd : List Nat) :
      Alike (.loop c eachRound atEnd) (.loop c' eachRound atEnd)

end Alike

theorem Wait.Alike.eq {a b : Wait} (h : a.Alike (· = ·) b) : a = b := by
  cases a
  cases b
  obtain ⟨rfl, rfl, rfl⟩ := h
  rfl

theorem Job.Alike.eq {a b : Job} (h : a.Alike (· = ·) (· = ·) b) : a = b := by
  cases a
  cases b
  obtain ⟨rfl, rfl, hinterval, hentries⟩ := h
  cases hentries
  cases hinterval with
  | none => rfl
  | some heq => rw [heq]

theorem Action.Alike.eq {a b : Action} (h : a.Alike (· = ·) (· = ·) b) : a = b := by
  cases h with
  | startJob job => rw [job.eq]
  | startScenario scenario arguments =>
      cases arguments
      rw [scenario]
  | reboot entity => rw [entity]
  | branch condition => rw [condition]
  | loop condition => rw [condition]
  | _ => rfl

/-! ### Records -/

section Records

variable {V J : Json → Json → Prop} {N : Number → Number → Prop} (h : Likeness V J N)

include h

theorem carries_wait : waitRecord.codec.Carries V (Wait.Alike N) := by
  intro v v' w hv hw
  obtain ⟨members, hspells, time, launched, finished, htime, hlaunched, hfinished, rfl⟩ :=
    waitRecord_eq_ok.mp hw
  obtain ⟨members', hspells', hmembers⟩ := h.spells hv hspells
  obtain ⟨time', htime', hlike⟩ := (Codec.carries_number h).finds_some (hmembers _) htime
  exact ⟨_, waitRecord_eq_ok.mpr ⟨members', hspells', time', launched, finished, htime',
    (Codec.carries_indices h).finds_eq (hmembers _) hlaunched,
    (Codec.carries_indices h).finds_eq (hmembers _) hfinished, rfl⟩, hlike, rfl, rfl⟩

theorem carries_failure : failureRecord.codec.Carries V (· = ·) := by
  intro v v' u hv hu
  obtain ⟨members, hspells⟩ := failureRecord_eq_ok.mp hu
  obtain ⟨members', hspells', -⟩ := h.spells hv hspells
  exact ⟨u, failureRecord_eq_ok.mpr ⟨members', hspells'⟩, rfl⟩

theorem carries_job : jobRecord.codec.Carries V (Job.Alike J N) := by
  intro v v' job hv hjob
  obtain ⟨members, rfl, entity, offset, interval, hentity, hoffset, hinterval, rfl⟩ :=
    jobRecord_eq_ok.mp hjob
  obtain ⟨members', rfl, hmembers⟩ := h.object hv
  obtain ⟨entity', hentity', hentities⟩ := (Codec.carries_any h).finds_some (hmembers _) hentity
  obtain ⟨offset', hoffset', hoffsets⟩ := (Codec.carries_number h).finds_some (hmembers _) hoffset
  obtain ⟨interval', hinterval', hintervals⟩ :=
    (Codec.carries_number? h).finds (hmembers _) hinterval
  refine ⟨_, jobRecord_eq_ok.mpr ⟨members', rfl, entity', offset', interval', hentity', hoffset',
    hinterval', rfl⟩, hentities, hoffsets, ?_, ?_⟩
  · cases hintervals with
    | none => exact .none
    | some hlike => exact hlike
  · -- the entries are what is left when the fixed keys are left out
    exact h.read (h.keeping hv fun key => !jobKeys.contains key)

theorem Single.carries {α : Type} {r : Json.Record (Option α) α} {key : String} {c : Codec α}
    {R : α → α → Prop} (hr : Single r key c) (hc : c.Carries V R) : r.codec.Carries V R := by
  intro v v' a hv ha
  obtain ⟨members, hspells, hfinds⟩ := hr.ofJson_eq_ok.mp ha
  obtain ⟨members', hspells', hmembers⟩ := h.spells hv hspells
  obtain ⟨a', hfinds', hlike⟩ := hc.finds_some (hmembers _) hfinds
  exact ⟨a', hr.ofJson_eq_ok.mpr ⟨members', hspells', hfinds'⟩, hlike⟩

theorem carries_launch : launchRecord.codec.Carries V fun a b =>
    J a.1 b.1 ∧ J (.object a.2) (.object b.2) := by
  intro v v' launch hv hlaunch
  obtain ⟨members, hspells, scenario, arguments, hscenario, harguments, rfl⟩ :=
    launchRecord_eq_ok.mp hlaunch
  obtain ⟨members', hspells', hmembers⟩ := h.spells hv hspells
  obtain ⟨scenario', hscenario', hscenarios⟩ :=
    (Codec.carries_any h).finds_some (hmembers _) hscenario
  obtain ⟨arguments', harguments', hlike⟩ :=
    (Codec.carries_members h).finds (hmembers _) harguments
  refine ⟨_, launchRecord_eq_ok.mpr
    ⟨members', hspells', scenario', arguments', hscenario', harguments', rfl⟩, hscenarios, ?_⟩
  exact h.getD_members hlike

theorem carries_bodies {name first second : String} (honce : ["condition", first, second].Nodup) :
    (bodiesRecord name first second).codec.Carries V fun a b => J a.1 b.1 ∧ a.2 = b.2 := by
  intro v v' bodies hv hbodies
  obtain ⟨members, hspells, condition, whenFirst, whenSecond, hcondition, hfirst, hsecond, rfl⟩ :=
    (bodiesRecord_eq_ok honce).mp hbodies
  obtain ⟨members', hspells', hmembers⟩ := h.spells hv hspells
  obtain ⟨condition', hcondition', hconditions⟩ :=
    (Codec.carries_any h).finds_some (hmembers _) hcondition
  exact ⟨_, (bodiesRecord_eq_ok honce).mpr ⟨members', hspells', condition', whenFirst, whenSecond,
    hcondition', (Codec.carries_indices h).finds_eq (hmembers _) hfirst,
    (Codec.carries_indices h).finds_eq (hmembers _) hsecond, rfl⟩, hconditions, rfl⟩

/-- **From like payloads of one kind like actions are read.** -/
theorem carries_payload {kind : Kind} {v v' : Json} {a : Action} (hv : V v v')
    (ha : Action.ofPayload kind v = .ok a) :
    ∃ a', Action.ofPayload kind v' = .ok a' ∧ a.Alike J N a' := by
  cases kind with
  | startJob =>
      obtain ⟨job, hjob, rfl⟩ := map_eq_ok.mp ha
      obtain ⟨job', hjob', hlike⟩ := carries_job h hv hjob
      exact ⟨_, map_eq_ok.mpr ⟨job', hjob', rfl⟩, .startJob hlike⟩
  | stopJob =>
      obtain ⟨target, htarget, rfl⟩ := map_eq_ok.mp ha
      obtain ⟨_, htarget', rfl⟩ :=
        stopRecord_single.carries h (Codec.carries_index h) hv htarget
      exact ⟨_, map_eq_ok.mpr ⟨target, htarget', rfl⟩, .stopJob target⟩
  | stopJobs =>
      obtain ⟨targets, htargets, rfl⟩ := map_eq_ok.mp ha
      obtain ⟨_, htargets', rfl⟩ :=
        stopsRecord_single.carries h (Codec.carries_indices h) hv htargets
      exact ⟨_, map_eq_ok.mpr ⟨targets, htargets', rfl⟩, .stopJobs targets⟩
  | startScenario =>
      obtain ⟨launch, hlaunch, rfl⟩ := map_eq_ok.mp ha
      obtain ⟨launch', hlaunch', hscenario, harguments⟩ := carries_launch h hv hlaunch
      exact ⟨_, map_eq_ok.mpr ⟨launch', hlaunch', rfl⟩, .startScenario hscenario harguments⟩
  | stopScenario =>
      obtain ⟨target, htarget, rfl⟩ := map_eq_ok.mp ha
      obtain ⟨_, htarget', rfl⟩ :=
        stopRecord_single.carries h (Codec.carries_index h) hv htarget
      exact ⟨_, map_eq_ok.mpr ⟨target, htarget', rfl⟩, .stopScenario target⟩
  | reboot =>
      obtain ⟨entity, hentity, rfl⟩ := map_eq_ok.mp ha
      obtain ⟨entity', hentity', hlike⟩ :=
        rebootRecord_single.carries h (Codec.carries_any h) hv hentity
      exact ⟨_, map_eq_ok.mpr ⟨entity', hentity', rfl⟩, .reboot hlike⟩
  | branch =>
      obtain ⟨⟨c, first, second⟩, hbodies, rfl⟩ := map_eq_ok.mp ha
      obtain ⟨⟨c', _⟩, hbodies', hcondition, rfl⟩ := carries_bodies h (by decide) hv hbodies
      exact ⟨_, map_eq_ok.mpr ⟨_, hbodies', rfl⟩, .branch hcondition first second⟩
  | loop =>
      obtain ⟨⟨c, first, second⟩, hbodies, rfl⟩ := map_eq_ok.mp ha
      obtain ⟨⟨c', _⟩, hbodies', hcondition, rfl⟩ := carries_bodies h (by decide) hv hbodies
      exact ⟨_, map_eq_ok.mpr ⟨_, hbodies', rfl⟩, .loop hcondition first second⟩

/-- **Of like functions everything is alike but the action,** which comes from the first payload,
whatever this is. -/
theorem carries_function {v v' : Json} {f : Function} (hv : V v v')
    (hf : functionRecord.ofJson v = .ok f) {members' : Members} {kind : Kind} {payload : Json}
    {action : Action} (hv' : v' = .object members')
    (hkind : kindMember? members' = some (kind, payload))
    (haction : Action.ofPayload kind payload = .ok action) :
    ∃ wait, functionRecord.ofJson v' = .ok ⟨f.id, f.label, action, wait⟩
      ∧ f.wait.Alike N wait := by
  obtain ⟨members, rfl, id, label, wait, failure, _, _, _, hid, hlabel, hwait, hfailure, -, -,
    rfl⟩ := functionRecord_eq_ok.mp hf
  obtain ⟨_, heq, hmembers⟩ := h.object hv
  cases heq.symm.trans hv'
  obtain ⟨wait', hwait', hlike⟩ := (carries_wait h).finds (hmembers _) hwait
  refine ⟨_, functionRecord_eq_ok.mpr ⟨members', hv', id, label, wait', failure, kind, payload,
    action, (Codec.carries_index h).finds_eq (hmembers _) hid,
    (Codec.carries_string h).finds_eq (hmembers _) hlabel, hwait',
    (carries_failure h).finds_eq (hmembers _) hfailure, hkind, haction, rfl⟩, ?_⟩
  cases hlike with
  | none => exact ⟨h.integer.mpr rfl, rfl, rfl⟩
  | some hlike => exact hlike

end Records

/-! ### Documents -/

/-- What stands in a document for its functions. -/
def functionItems (v : Json) : List Json :=
  match Keyed.get? "openbach_functions" (Json.spelled (record.fields.map Json.Field.name) v) with
  | some (.array items) => items
  | _ => []

/-- Each item is read as the function in its place. -/
abbrev ReadsEach (items : List Json) (functions : List Function) : Prop :=
  List.Forall₂ (fun item f => functionRecord.ofJson item = .ok f) items functions

section Items

variable {v : Json} {members : Members} (hspells : Spells
  ["name", "description", "arguments", "constants", "openbach_functions"] v members)

include hspells

theorem functionItems_of_nil (h : Keyed.all "openbach_functions" members = []) :
    functionItems v = [] := by
  have hspelled : Json.spelled (record.fields.map Json.Field.name) v = members :=
    hspells.eq_spelled
  rw [functionItems, hspelled, ← Keyed.head?_all, h]
  rfl

theorem functionItems_of_array {items : List Json}
    (h : Keyed.all "openbach_functions" members = [.array items]) : functionItems v = items := by
  have hspelled : Json.spelled (record.fields.map Json.Field.name) v = members :=
    hspells.eq_spelled
  rw [functionItems, hspelled, ← Keyed.head?_all, h]
  rfl

/-- The functions that are found are read one from each item. -/
theorem finds_functions {functions : List Function} : (∃ found,
      functionRecord.codec.list.Finds (Keyed.all "openbach_functions" members) found
        ∧ found.getD [] = functions) → ReadsEach (functionItems v) functions := by
  rintro ⟨found, hfound, rfl⟩
  generalize hall : Keyed.all "openbach_functions" members = all at hfound
  cases hfound with
  | nothing =>
      rw [functionItems_of_nil hspells hall]
      exact .nil
  | one read =>
      obtain ⟨items, rfl, hread⟩ := Codec.list_ofJson_eq_ok.mp read
      rw [functionItems_of_array hspells hall]
      exact hread

end Items

/-- **The functions of a document are read one from each item.** -/
theorem reads_functionItems {v : Json} {d : Document} (h : ofJson v = .ok d) :
    ReadsEach (functionItems v) d.functions := by
  obtain ⟨members, hspells, _, _, _, _, functions, -, -, -, -, hfunctions, rfl⟩ :=
    ofJson_eq_ok.mp h
  exact finds_functions hspells ⟨functions, hfunctions, rfl⟩

variable {V J : Json → Json → Prop} {N : Number → Number → Prop}

/-- Under the key of the functions of like documents there are like items, and functions that are
read from these items are found there. -/
theorem likeness_functions (h : Likeness V J N) {v v' : Json} {members members' : Members}
    (hspells : Spells ["name", "description", "arguments", "constants", "openbach_functions"] v
      members)
    (hspells' : Spells ["name", "description", "arguments", "constants", "openbach_functions"] v'
      members')
    (hmembers : AlikeMembers V members members') {found : Option (List Function)}
    (hfound : functionRecord.codec.list.Finds (Keyed.all "openbach_functions" members) found) :
    List.Forall₂ V (functionItems v) (functionItems v')
      ∧ ∀ functions, ReadsEach (functionItems v') functions → ∃ found',
        functionRecord.codec.list.Finds (Keyed.all "openbach_functions" members') found'
          ∧ found'.getD [] = functions := by
  have hunder := hmembers "openbach_functions"
  generalize hall : Keyed.all "openbach_functions" members = all at hfound hunder
  cases hfound with
  | nothing =>
      have hall' := hunder.nothing rfl
      rw [functionItems_of_nil hspells hall, functionItems_of_nil hspells' hall', hall']
      refine ⟨.nil, fun functions hread => ⟨none, .nothing, ?_⟩⟩
      cases hread
      rfl
  | one read =>
      obtain ⟨items, rfl, -⟩ := Codec.list_ofJson_eq_ok.mp read
      obtain ⟨w, hall', hw⟩ := hunder.one _ rfl
      obtain ⟨items', rfl, hitems⟩ := h.array hw
      rw [functionItems_of_array hspells hall, functionItems_of_array hspells' hall', hall']
      exact ⟨hitems, fun functions hread =>
        ⟨some functions, .one (Codec.list_ofJson_eq_ok.mpr ⟨items', rfl, hread⟩), rfl⟩⟩

/-- **Of like documents everything is alike but the functions,** which come from like items and
are whatever is read from these. -/
theorem carries_document (h : Likeness V J N) {v v' : Json} {d : Document} (hv : V v v')
    (hd : ofJson v = .ok d) :
    List.Forall₂ V (functionItems v) (functionItems v')
      ∧ ∀ functions, ReadsEach (functionItems v') functions → ∃ arguments constants,
        ofJson v' = .ok ⟨d.name, d.description, arguments, constants, functions⟩
          ∧ J (.object d.arguments) (.object arguments)
          ∧ J (.object d.constants) (.object constants) := by
  obtain ⟨members, hspells, name, description, arguments, constants, found, hname, hdescription,
    harguments, hconstants, hfound, rfl⟩ := ofJson_eq_ok.mp hd
  obtain ⟨members', hspells', hmembers⟩ := h.spells hv hspells
  obtain ⟨hitems, hfunctions⟩ := likeness_functions h hspells hspells' hmembers hfound
  refine ⟨hitems, fun functions hread => ?_⟩
  obtain ⟨found', hfound', hfunctions'⟩ := hfunctions functions hread
  obtain ⟨arguments', harguments', hlike⟩ :=
    (Codec.carries_members h).finds (hmembers _) harguments
  obtain ⟨constants', hconstants', hlike'⟩ :=
    (Codec.carries_members h).finds (hmembers _) hconstants
  have hname' := (Codec.carries_string h).finds_eq (hmembers _) hname
  have hdescription' := (Codec.carries_string h).finds_eq (hmembers _) hdescription
  refine ⟨_, _, ofJson_eq_ok.mpr ⟨members', hspells', name, description, arguments', constants',
    found', hname', hdescription', harguments', hconstants', hfound', ?_⟩,
    h.getD_members hlike, h.getD_members hlike'⟩
  rw [hfunctions']

end Testbed.Document

/-
Reading documents.

The records of the wire form, from the inside out.  A function is the only record whose
unknown keys count: they are set aside, the first one that names a kind gives the
action, and its payload is looked at only after everything else in the function was
found to be in order.  A payload is therefore always read from a value, whichever way
the document itself is read.
-/
import Testbed.Json.Record
import Testbed.Document.Basic

namespace Testbed.Document

open Json (Codec Fault Field Record)

/-! ### Payloads -/

/-- What is known of a job so far. -/
structure JobDraft where
  entity : Option Json := none
  offset : Option Number := none
  interval : Option (Option Number) := none
  entries : Members := []

/-- The payload of a job.  All keys that are not fixed ones are kept, whatever stands under them. -/
def jobRecord : Record JobDraft Job where
  name := "StartJobInstanceDocument"
  fields := [
    .of "entity_name" true .any (·.entity) fun v d => { d with entity := some v },
    .of "offset" true .number (·.offset) fun n d => { d with offset := some n },
    .of "interval" false .number? (·.interval) fun n d => { d with interval := some n }]
  blank := {}
  other := some fun name =>
    Codec.any.map fun v d => { d with entries := Keyed.insert name v d.entries }
  positional := false
  excess := .tooLong
  finish d := do
    let entity ← Record.require "entity_name" d.entity
    let offset ← Record.require "offset" d.offset
    return ⟨entity, offset, d.interval.join, d.entries⟩

/-- The payload that stops a job or a scenario. -/
def stopRecord : Record (Option Nat) Nat where
  name := "StopFunctionDocument"
  fields := [.of "openbach_function_id" true .index id fun n _ => some n]
  blank := none
  other := none
  positional := true
  excess := .tooLong
  finish := Record.require "openbach_function_id"

/-- The payload that stops several jobs. -/
def stopsRecord : Record (Option (List Nat)) (List Nat) where
  name := "StopFunctionsDocument"
  fields := [.of "openbach_function_ids" true (.list .index) id fun ns _ => some ns]
  blank := none
  other := none
  positional := true
  excess := .tooLong
  finish := Record.require "openbach_function_ids"

/-- What is known of a scenario launch so far. -/
structure LaunchDraft where
  scenario : Option Json := none
  arguments : Option Members := none

/-- The payload of a scenario launch; without arguments there are none. -/
def launchRecord : Record LaunchDraft (Json × Members) where
  name := "StartScenarioInstanceDocument"
  fields := [
    .of "scenario_name" true .any (·.scenario) fun v d => { d with scenario := some v },
    .of "arguments" false .members (·.arguments) fun ms d => { d with arguments := some ms }]
  blank := {}
  other := none
  positional := true
  excess := .tooLong
  finish d := do
    let scenario ← Record.require "scenario_name" d.scenario
    return (scenario, d.arguments.getD [])

/-- The payload of a reboot. -/
def rebootRecord : Record (Option Json) Json where
  name := "RebootDocument"
  fields := [.of "entity_name" true .any id fun v _ => some v]
  blank := none
  other := none
  positional := true
  excess := .tooLong
  finish := Record.require "entity_name"

/-- What is known of a branch or a loop so far. -/
structure BodiesDraft where
  condition : Option Json := none
  first : Option (List Nat) := none
  second : Option (List Nat) := none

/-- The payload of a kind with a condition and two bodies. -/
def bodiesRecord (name first second : String) :
    Record BodiesDraft (Json × List Nat × List Nat) where
  name := name
  fields := [
    .of "condition" true .any (·.condition) fun v d => { d with condition := some v },
    .of first false (.list .index) (·.first) fun ns d => { d with first := some ns },
    .of second false (.list .index) (·.second) fun ns d => { d with second := some ns }]
  blank := {}
  other := none
  positional := true
  excess := .tooLong
  finish d := do
    let condition ← Record.require "condition" d.condition
    return (condition, d.first.getD [], d.second.getD [])

/-- The payload of a branch. -/
def branchRecord : Record BodiesDraft (Json × List Nat × List Nat) :=
  bodiesRecord "IfDocument" "openbach_functions_true" "openbach_functions_false"

/-- The payload of a loop. -/
def loopRecord : Record BodiesDraft (Json × List Nat × List Nat) :=
  bodiesRecord "WhileDocument" "openbach_functions_while" "openbach_functions_end"

/-- The action of a kind with a given payload. -/
def Action.ofPayload (kind : Kind) (payload : Json) : Except Fault Action :=
  match kind with
  | .startJob => (jobRecord.ofJson payload).map .startJob
  | .stopJob => (stopRecord.ofJson payload).map .stopJob
  | .stopJobs => (stopsRecord.ofJson payload).map .stopJobs
  | .startScenario => (launchRecord.ofJson payload).map fun (s, args) => .startScenario s args
  | .stopScenario => (stopRecord.ofJson payload).map .stopScenario
  | .reboot => (rebootRecord.ofJson payload).map .reboot
  | .branch => (branchRecord.ofJson payload).map fun (c, first, second) => .branch c first second
  | .loop => (loopRecord.ofJson payload).map fun (c, first, second) => .loop c first second

/-- The action that the first member named after a kind gives. -/
def Action.ofMembers : Members → Except Fault Action
  | [] => .error .noKind
  | (key, payload) :: rest =>
    match Kind.ofTag? key with
    | some kind => ofPayload kind payload
    | none => ofMembers rest

/-! ### Functions -/

/-- What is known of a wait so far. -/
structure WaitDraft where
  time : Option Number := none
  launched : Option (List Nat) := none
  finished : Option (List Nat) := none

/-- A wait, in which only the time has to be told. -/
def waitRecord : Record WaitDraft Wait where
  name := "WaitDocument"
  fields := [
    .of "time" true .number (·.time) fun n d => { d with time := some n },
    .of "launched_ids" false (.list .index) (·.launched) fun ns d =>
      { d with launched := some ns },
    .of "finished_ids" false (.list .index) (·.finished) fun ns d =>
      { d with finished := some ns }]
  blank := {}
  other := none
  positional := true
  excess found _ := .surplus found
  finish d := do
    let time ← Record.require "time" d.time
    return ⟨time, d.launched.getD [], d.finished.getD []⟩

/-- The failure policy of a function, which has no fields. -/
def failureRecord : Record Unit Unit where
  name := "OnFailDocument"
  fields := []
  blank := ()
  other := none
  positional := true
  excess found _ := .surplus found
  finish _ := .ok ()

/-- What is known of a function so far. -/
structure FunctionDraft where
  id : Option Nat := none
  label : Option String := none
  wait : Option Wait := none
  failure : Option Unit := none
  /-- The members set aside, in order. -/
  others : Members := []

/-- A function.  Its action is read last, from the members that were set aside. -/
def functionRecord : Record FunctionDraft Function where
  name := "FunctionDocument"
  fields := [
    .of "id" true .index (·.id) fun n d => { d with id := some n },
    .of "label" true .string (·.label) fun s d => { d with label := some s },
    .of "wait" false waitRecord.codec (·.wait) fun w d => { d with wait := some w },
    .of "on_fail" false failureRecord.codec (·.failure) fun u d => { d with failure := some u }]
  blank := {}
  other := some fun name => Codec.raw.map fun v d => { d with others := d.others ++ [(name, v)] }
  positional := false
  excess found _ := .surplus found
  finish d := do
    let id ← Record.require "id" d.id
    let label ← Record.require "label" d.label
    let action ← Action.ofMembers d.others
    return ⟨id, label, action, d.wait.getD .immediate⟩

/-! ### Documents -/

/-- What is known of a document so far. -/
structure Draft where
  name : Option String := none
  description : Option String := none
  arguments : Option Members := none
  constants : Option Members := none
  functions : Option (List Function) := none

/-- A document. -/
def record : Record Draft Document where
  name := "ScenarioDocument"
  fields := [
    .of "name" true .string (·.name) fun s d => { d with name := some s },
    .of "description" false .string (·.description) fun s d => { d with description := some s },
    .of "arguments" false .members (·.arguments) fun ms d => { d with arguments := some ms },
    .of "constants" false .members (·.constants) fun ms d => { d with constants := some ms },
    .of "openbach_functions" false (.list functionRecord.codec) (·.functions) fun fs d =>
      { d with functions := some fs }]
  blank := {}
  other := none
  positional := true
  excess found _ := .surplus found
  finish d := do
    let name ← Record.require "name" d.name
    return ⟨name, d.description.getD "", d.arguments.getD [], d.constants.getD [],
      d.functions.getD []⟩

/-- Reads a document from a value. -/
def ofJson (value : Json) : Except Fault Document := record.ofJson value

/-- Reads a document from a text. -/
def ofText (text : String) : Except Fault Document :=
  Json.Reader.whole (record.read Json.depthLimit) text

/-- The wording of a document that cannot be read. -/
def readingError (fault : Fault) : String := "Failed to parse scenario: " ++ fault.message

end Testbed.Document

/-
Built scenarios, as the testbed receives them.

In a document operations have become functions: each has a number, and other functions
are named by number.  What an operation is told to do is its action, which belongs to
one of the eight kinds.  `toJson` is the form of a document on the wire.
-/
import Testbed.Kind
import Testbed.Json.Basic

namespace Testbed

namespace Document

/-- The version of the form of documents. -/
def wireFormatVersion : String := "2.0.0"

/-- When a function may start: `time` seconds after the functions of both lists have been
launched or have finished. -/
structure Wait where
  time : Number
  launched : List Nat
  finished : List Nat

/-- The wait of a function that is written without one. -/
def Wait.immediate : Wait := ⟨.integer 0, [], []⟩

/-- All functions waited on, the launches first. -/
def Wait.references (w : Wait) : List Nat := w.launched ++ w.finished

/-- A job to start.  The arguments of the job stand under the name of the job, beside the
fixed keys; a document may hold several such entries, or none. -/
structure Job where
  entity : Json
  offset : Number
  interval : Option Number
  entries : Members

/-- The fixed keys beside which the name of a job is a key. -/
def jobKeys : List String := ["entity_name", "offset", "interval"]

/-- The name of the job: the first key that is not a fixed one. -/
def Job.name? (j : Job) : Option String := (Keyed.keys j.entries).head?

/-- What a function does. -/
inductive Action where
  | startJob (job : Job)
  | stopJob (target : Nat)
  | stopJobs (targets : List Nat)
  /-- The scenario is a name, or a whole document. -/
  | startScenario (scenario : Json) (arguments : Members)
  | stopScenario (target : Nat)
  | reboot (entity : Json)
  | branch (condition : Json) (whenTrue whenFalse : List Nat)
  | loop (condition : Json) (eachRound atEnd : List Nat)

namespace Action

/-- The kind that an action belongs to. -/
def kind : Action → Kind
  | startJob _ => .startJob
  | stopJob _ => .stopJob
  | stopJobs _ => .stopJobs
  | startScenario .. => .startScenario
  | stopScenario _ => .stopScenario
  | reboot _ => .reboot
  | branch .. => .branch
  | loop .. => .loop

/-- The functions that a stop action points at. -/
def targets : Action → List Nat
  | stopJob target => [target]
  | stopJobs targets => targets
  | stopScenario target => [target]
  | _ => []

/-- The two bodies of a branch or a loop. -/
def bodies? : Action → Option (List Nat × List Nat)
  | branch _ whenTrue whenFalse => some (whenTrue, whenFalse)
  | loop _ eachRound atEnd => some (eachRound, atEnd)
  | _ => none

end Action

/-- One function of a document.  Its failure policy is always empty and needs no field. -/
structure Function where
  id : Nat
  label : String
  action : Action
  wait : Wait

end Document

/-- A built scenario. -/
structure Document where
  name : String
  description : String
  arguments : Members
  constants : Members
  functions : List Document.Function

namespace Document

/-- The first function with a number. -/
def function? (d : Document) (id : Nat) : Option Function := d.functions.find? fun f => f.id == id

/-! ### Wire form -/

/-- The fixed members of a job's payload. -/
def Job.fixedMembers (j : Job) : Members :=
  [("entity_name", j.entity), ("offset", .number j.offset)]
    ++ (match j.interval with
      | some interval => [("interval", .number interval)]
      | none => [])

/-- The members of a job's payload: the entries are set one by one after the fixed members, so
that one under a fixed key would take the place of what stands there. -/
def Job.toMembers (j : Job) : Members := Keyed.ofList (j.fixedMembers ++ j.entries)

/-- The payload of an action. -/
def Action.payload : Action → Json
  | startJob job => .object job.toMembers
  | stopJob target => .object [("openbach_function_id", .ofNat target)]
  | stopJobs targets => .object [("openbach_function_ids", .ofNats targets)]
  | startScenario scenario arguments =>
    .object [("scenario_name", scenario), ("arguments", .object arguments)]
  | stopScenario target => .object [("openbach_function_id", .ofNat target)]
  | reboot entity => .object [("entity_name", entity)]
  | branch condition whenTrue whenFalse =>
    .object [("condition", condition), ("openbach_functions_true", .ofNats whenTrue),
      ("openbach_functions_false", .ofNats whenFalse)]
  | loop condition eachRound atEnd =>
    .object [("condition", condition), ("openbach_functions_while", .ofNats eachRound),
      ("openbach_functions_end", .ofNats atEnd)]

/-- An action under the name of its kind. -/
def Action.toMember (a : Action) : String × Json := (a.kind.tag, a.payload)

/-- An action as an object of its own. -/
def Action.toJson (a : Action) : Json := .object [a.toMember]

/-- A wait on the wire. -/
def Wait.toJson (w : Wait) : Json :=
  .object [("time", .number w.time), ("launched_ids", .ofNats w.launched),
    ("finished_ids", .ofNats w.finished)]

/-- A function on the wire; the action stands between the label and the wait. -/
def Function.toJson (f : Function) : Json :=
  .object [("id", .ofNat f.id), ("label", .string f.label), f.action.toMember,
    ("wait", f.wait.toJson), ("on_fail", .object [])]

/-- A document on the wire. -/
def toJson (d : Document) : Json :=
  .object [("name", .string d.name), ("description", .string d.description),
    ("arguments", .object d.arguments), ("constants", .object d.constants),
    ("openbach_functions", .array (d.functions.map Function.toJson))]

/-! ### Equality -/

/-- Equality of waits; the lists count in their order. -/
def Wait.same (a b : Wait) : Bool :=
  a.time.same b.time && a.launched == b.launched && a.finished == b.finished

/-- Equality of jobs, with everything that stands beside the fixed keys. -/
def Job.same (a b : Job) : Bool :=
  a.entity.same b.entity && a.offset.same b.offset
    && (match a.interval, b.interval with
      | some x, some y => x.same y
      | none, none => true
      | _, _ => false)
    && Json.sameObject a.entries b.entries

/-- Equality of actions; those of different kinds are never equal. -/
def Action.same : Action → Action → Bool
  | startJob a, startJob b => a.same b
  | stopJob a, stopJob b => a == b
  | stopJobs a, stopJobs b => a == b
  | startScenario s a, startScenario t b => s.same t && Json.sameObject a b
  | stopScenario a, stopScenario b => a == b
  | reboot a, reboot b => a.same b
  | branch c t f, branch c' t' f' => c.same c' && t == t' && f == f'
  | loop c b e, loop c' b' e' => c.same c' && b == b' && e == e'
  | _, _ => false

/-- Equality of functions. -/
def Function.same (a b : Function) : Bool :=
  a.id == b.id && a.label == b.label && a.action.same b.action && a.wait.same b.wait

/-- Equality of lists of functions, place by place. -/
def sameFunctions : List Function → List Function → Bool
  | [], [] => true
  | a :: as, b :: bs => a.same b && sameFunctions as bs
  | _, _ => false

/-- Equality of documents, for which the order of keys does not count. -/
def same (a b : Document) : Bool :=
  a.name == b.name && a.description == b.description
    && Json.sameObject a.arguments b.arguments && Json.sameObject a.constants b.constants
    && sameFunctions a.functions b.functions

end Document

end Testbed

/-
Operations: the nodes of a scenario.

An operation has a kind from the start; its payload, its label and its bodies are
configured later, and of repeated settings the last one counts.  A setting meant for
another kind is refused and changes nothing.  Operations point at one another by
handles, which carry the identity of the scenario that issued them.

An operation may carry a whole scenario to launch.  The type of that scenario is a
parameter here, so that operations can be described before scenarios are.
-/
import Testbed.Scenario.Error
import Testbed.Duration

namespace Testbed

/-- Points at the operation that a scenario added as its `index`-th. -/
structure Handle where
  scenario : Nat
  index : Nat
deriving DecidableEq, Inhabited

/-! ### Waiting -/

/-- When an operation may start: `delay` after the operations of both lists have been
launched or have finished. -/
structure Wait where
  delay : Duration
  launched : List Handle
  finished : List Handle
deriving DecidableEq

namespace Wait

/-- The wait for nothing at all. -/
def immediate : Wait := ⟨.zero, [], []⟩

/-- Adds a handle at the end, unless it is there. -/
def addTo (handles : List Handle) (h : Handle) : List Handle :=
  if handles.contains h then handles else handles ++ [h]

/-- Waits for the launch of one more operation, unless it does already. -/
def addLaunched (w : Wait) (h : Handle) : Wait := { w with launched := addTo w.launched h }

/-- Waits for the end of one more operation, unless it does already. -/
def addFinished (w : Wait) (h : Handle) : Wait := { w with finished := addTo w.finished h }

/-- Waits for the launch of some operations as well. -/
def onLaunched (w : Wait) (handles : List Handle) : Wait := handles.foldl addLaunched w

/-- Waits for the end of some operations as well. -/
def onFinished (w : Wait) (handles : List Handle) : Wait := handles.foldl addFinished w

/-- Waits for a time after that. -/
def withDelay (w : Wait) (delay : Duration) : Wait := { w with delay := delay }

/-- Everything that is waited on, the launches first. -/
def references (w : Wait) : List Handle := w.launched ++ w.finished

end Wait

/-! ### Payloads -/

/-- The values given to the arguments of a job or a scenario, by name. -/
abbrev NamedTokens := List (String × Token)

/-- A job to start on an entity. -/
structure JobLaunch where
  job : String
  entity : Token
  offset : Duration
  interval : Option Duration
  arguments : NamedTokens

namespace JobLaunch

/-- A job that starts at once and only once. -/
def new (job : String) (entity : Token) : JobLaunch := ⟨job, entity, .zero, none, []⟩

/-- Gives an argument of the job its value; of several values the last one counts. -/
def argument (j : JobLaunch) (name : String) (value : Token) : JobLaunch :=
  { j with arguments := Keyed.insert name value j.arguments }

end JobLaunch

/-- A scenario to launch: one that the testbed knows, or one sent along. -/
inductive SubScenario (σ : Type) where
  | named (name : String)
  | embedded (scenario : σ)

/-- The launch of a scenario. -/
structure ScenarioLaunch (σ : Type) where
  scenario : SubScenario σ
  arguments : NamedTokens

namespace ScenarioLaunch

variable {σ : Type}

/-- The launch of a scenario without arguments. -/
def new (scenario : SubScenario σ) : ScenarioLaunch σ := ⟨scenario, []⟩

/-- Gives an argument of the scenario its value; of several values the last one counts. -/
def argument (l : ScenarioLaunch σ) (name : String) (value : Token) : ScenarioLaunch σ :=
  { l with arguments := Keyed.insert name value l.arguments }

end ScenarioLaunch

/-- What an operation of each kind is configured with. -/
inductive Payload (σ : Type) where
  | startJob (launch : JobLaunch)
  | stopJob (target : Handle)
  | stopJobs (targets : List Handle)
  | startScenario (launch : ScenarioLaunch σ)
  | stopScenario (target : Handle)
  | reboot (entity : Token)
  | branch (condition : Condition)
  | loop (condition : Condition)

namespace Payload

variable {σ : Type}

/-- The kind that a payload is for. -/
def kind : Payload σ → Kind
  | startJob _ => .startJob
  | stopJob _ => .stopJob
  | stopJobs _ => .stopJobs
  | startScenario _ => .startScenario
  | stopScenario _ => .stopScenario
  | reboot _ => .reboot
  | branch _ => .branch
  | loop _ => .loop

/-- The operations that a stop payload points at. -/
def targets : Payload σ → List Handle
  | stopJob target => [target]
  | stopJobs targets => targets
  | stopScenario target => [target]
  | _ => []

/-- The scenario that a payload carries. -/
def embedded? : Payload σ → Option σ
  | startScenario ⟨.embedded s, _⟩ => some s
  | _ => none

end Payload

/-! ### Operations -/

/-- A node of a scenario.  The bodies are the two branches of an `if`, or what a `while`
runs on each round and at its end. -/
structure Operation (σ : Type) where
  kind : Kind
  label : Option String
  payload : Option (Payload σ)
  wait : Wait
  firstBody : List Handle
  secondBody : List Handle

namespace Operation

variable {σ : Type}

/-- An operation that is not configured yet. -/
def new (kind : Kind) (wait : Wait) : Operation σ := ⟨kind, none, none, wait, [], []⟩

/-- The scenario that an operation carries. -/
def embedded? (op : Operation σ) : Option σ := op.payload.bind Payload.embedded?

/-- Labels an operation. -/
def setLabel (op : Operation σ) (label : String) : Operation σ := { op with label := some label }

/-- Refuses what is meant for another kind. -/
def expectKind (op : Operation σ) (found : Kind) : Except ScenarioError Unit :=
  if found = op.kind then .ok () else .error (.payloadMismatch op.kind found)

/-- Sets the payload, which must be for the kind of the operation. -/
def configure (op : Operation σ) (payload : Payload σ) : Except ScenarioError (Operation σ) := do
  op.expectKind payload.kind
  return { op with payload := some payload }

/-- Sets the condition of a loop if the operation is one, and otherwise that of a branch, which
every other kind refuses. -/
def configureCondition (op : Operation σ) (condition : Condition) :
    Except ScenarioError (Operation σ) :=
  match op.kind with
  | .loop => op.configure (.loop condition)
  | _ => op.configure (.branch condition)

/-- The four lists of operations that branches and loops run. -/
inductive Body where
  | ifTrue
  | ifFalse
  | eachRound
  | atEnd
deriving DecidableEq

/-- The kind that has a body. -/
def Body.kind : Body → Kind
  | ifTrue => .branch
  | ifFalse => .branch
  | eachRound => .loop
  | atEnd => .loop

/-- Sets one of the bodies. -/
def configureBody (op : Operation σ) (body : Body) (handles : List Handle) :
    Except ScenarioError (Operation σ) := do
  op.expectKind body.kind
  return match body with
    | .ifTrue | .eachRound => { op with firstBody := handles }
    | .ifFalse | .atEnd => { op with secondBody := handles }

end Operation

end Testbed

/-
From a scenario to its document.

Building goes through a scenario in a fixed order, and the first thing that is wrong
ends it: repeated names, then the waits of each operation, then cycles of waits, then
the actions of the operations one by one.  An operation gets its position as number.
A scenario that an operation carries is built by itself, with its own names and
numbers, and becomes part of the action as a whole.
-/
import Testbed.Scenario.Basic
import Testbed.Document.Basic
import Testbed.WaitGraph

namespace Testbed.Scenario

/-! ### Names -/

/-- The first name that a list holds twice, in the order in which the second ones come. -/
def firstRepeated? : (seen : List String) → List String → Option String
  | _, [] => none
  | seen, name :: rest =>
    if seen.contains name then some name else firstRepeated? (name :: seen) rest

/-- The first constant that repeats a constant or an argument. -/
def firstClash? (arguments : List String) :
    (seen : List String) → List String → Option (NameTable × String)
  | _, [] => none
  | seen, name :: rest =>
    if seen.contains name then some (.constants, name)
    else if arguments.contains name then some (.both, name)
    else firstClash? arguments (name :: seen) rest

/-- Refuses names that are declared twice, in one table or across both. -/
def checkNames (s : Scenario) : Except ScenarioError Unit :=
  let arguments := s.arguments.map Prod.fst
  match firstRepeated? [] arguments with
  | some name => .error (.duplicateName .arguments name)
  | none =>
    match firstClash? arguments [] (Keyed.keys s.constants) with
    | some (table, name) => .error (.duplicateName table name)
    | none => .ok ()

/-! ### Waits -/

/-- The positions of the operations that handles point at. -/
def resolveAll (s : Scenario) (handles : List Handle) : Except ScenarioError (List Nat) :=
  handles.mapM s.resolve

/-- The wait of the operation at a position, which must not be for itself. -/
def buildWait (s : Scenario) (index : Nat) (w : Wait) : Except ScenarioError Document.Wait := do
  let launched ← s.resolveAll w.launched
  let finished ← s.resolveAll w.finished
  if launched.contains index || finished.contains index then throw (.selfWait index)
  return ⟨w.delay.seconds, launched, finished⟩

/-- The waits of the operations from a position on. -/
def buildWaits (s : Scenario) : (index : Nat) → List (Operation Scenario) →
    Except ScenarioError (List Document.Wait)
  | _, [] => return []
  | index, op :: rest => do
    let wait ← s.buildWait index op.wait
    return wait :: (← s.buildWaits (index + 1) rest)

/-- Refuses waits that go round in a circle. -/
def checkCycles (waits : List Document.Wait) : Except ScenarioError Unit :=
  match WaitGraph.findCycle (waits.map Document.Wait.references) with
  | some cycle => .error (.waitCycle cycle)
  | none => .ok ()

/-! ### Actions -/

/-- A token of the operation at a position, resolved. -/
def resolveToken (d : Declarations) (index : Nat) (token : Token) : Except ScenarioError Json :=
  match token.resolve d with
  | .ok value => .ok value
  | .error unknown => .error (unknown.inOperation index)

/-- Named tokens of the operation at a position, resolved in order. -/
def resolveEntries (d : Declarations) (index : Nat) : NamedTokens → Except ScenarioError Members
  | [] => return []
  | (name, token) :: rest => do
    let value ← resolveToken d index token
    return (name, value) :: (← resolveEntries d index rest)

/-- The object of named tokens, resolved. -/
def resolveNamed (d : Declarations) (index : Nat) (entries : NamedTokens) :
    Except ScenarioError Members := do
  return Keyed.ofList (← resolveEntries d index entries)

/-- A condition of the operation at a position, in its JSON form. -/
def buildCondition (d : Declarations) (index : Nat) (c : Condition) : Except ScenarioError Json :=
  match c.build d with
  | .ok value => .ok value
  | .error unknown => .error (unknown.inOperation index)

/-- The target of the stop operation of some kind at a position. -/
def resolveTarget (s : Scenario) (index : Nat) (kind : Kind) (target : Handle) :
    Except ScenarioError Nat := do
  let position ← s.resolve target
  let found := (← s.operation target).kind
  match kind.stopTarget? with
  | some expected =>
    if expected = found then return position
    else throw (.invalidTarget index position expected found)
  | none => return position

/-- The job that an operation starts. -/
def buildJob (d : Declarations) (index : Nat) (launch : JobLaunch) :
    Except ScenarioError Document.Job := do
  if Document.jobKeys.contains launch.job then throw (.reservedJobName index launch.job)
  let arguments ← resolveNamed d index launch.arguments
  let entity ← resolveToken d index launch.entity
  return ⟨entity, launch.offset.seconds, launch.interval.map Duration.seconds,
    [(launch.job, .object arguments)]⟩

/-- What building an embedded scenario has come to. -/
abbrev Built := Except ScenarioError Document

/-- The scenario that an operation launches: the document that was built for it, or its name
if it is not sent along. -/
def buildSubScenario (index : Nat) (name : String) : Option Built → Except ScenarioError Json
  | none => .ok (.string name)
  | some (.ok document) => .ok document.toJson
  | some (.error source) => .error (.subScenario name index source)

/-- The action of the operation at a position; `built` is what its embedded scenario came
to, if it has one. -/
def buildAction (s : Scenario) (d : Declarations) (index : Nat) (op : Operation Scenario)
    (built : Option Built) : Except ScenarioError Document.Action :=
  match op.payload with
  | none => .error (.unconfigured index op.kind)
  | some (.startJob launch) => do return .startJob (← buildJob d index launch)
  | some (.stopJob target) => do return .stopJob (← s.resolveTarget index op.kind target)
  | some (.stopJobs targets) => do
    return .stopJobs (← targets.mapM (s.resolveTarget index op.kind))
  | some (.startScenario launch) => do
    let scenario ← buildSubScenario index launch.scenario.name built
    return .startScenario scenario (← resolveNamed d index launch.arguments)
  | some (.stopScenario target) => do
    return .stopScenario (← s.resolveTarget index op.kind target)
  | some (.reboot entity) => do return .reboot (← resolveToken d index entity)
  | some (.branch condition) => do
    let value ← buildCondition d index condition
    let whenTrue ← s.resolveAll op.firstBody
    return .branch value whenTrue (← s.resolveAll op.secondBody)
  | some (.loop condition) => do
    let value ← buildCondition d index condition
    let eachRound ← s.resolveAll op.firstBody
    return .loop value eachRound (← s.resolveAll op.secondBody)

/-- The label of an operation, which is its number unless another one was set. -/
def labelOf (op : Operation Scenario) (index : Nat) : String :=
  op.label.getD (operationText index)

/-- The functions of the operations from a position on, with their waits and with what
their embedded scenarios came to. -/
def buildFunctions (s : Scenario) (d : Declarations) : (index : Nat) →
    List (Operation Scenario) → List Document.Wait → List (Option Built) →
    Except ScenarioError (List Document.Function)
  | index, op :: ops, wait :: waits, built :: builts => do
    let action ← s.buildAction d index op built
    let rest ← s.buildFunctions d (index + 1) ops waits builts
    return ⟨index, labelOf op index, action, wait⟩ :: rest
  | _, _, _, _ => return []

/-- The arguments of the document: their descriptions by name. -/
def argumentTable (s : Scenario) : Members :=
  Keyed.ofList (s.arguments.map fun (name, text) => (name, .string text))

/-- The constants of the document: their values by name. -/
def constantTable (s : Scenario) : Members := Keyed.ofList s.constants

/-- A scenario's document, given what the embedded scenarios of its operations came to. -/
def assemble (s : Scenario) (builts : List (Option Built)) : Except ScenarioError Document := do
  s.checkNames
  let waits ← s.buildWaits 0 s.operations
  checkCycles waits
  let functions ← s.buildFunctions s.declarations 0 s.operations waits builts
  return ⟨s.name, s.description, s.argumentTable, s.constantTable, functions⟩

mutual

/-- The document of a scenario, or the first thing that is wrong with it. -/
def build : Scenario → Except ScenarioError Document
  | ⟨identity, ancestry, name, description, arguments, constants, operations⟩ =>
    assemble ⟨identity, ancestry, name, description, arguments, constants, operations⟩
      (buildEmbedded operations)

/-- What the scenario of each operation comes to; `none` for an operation that carries
none. -/
def buildEmbedded : List (Operation Scenario) → List (Option Built)
  | [] => []
  | ⟨_, _, some (.startScenario ⟨.embedded s, _⟩), _, _, _⟩ :: rest =>
    some s.build :: buildEmbedded rest
  | _ :: rest => none :: buildEmbedded rest

end

/-- The wire form of the document. -/
def serialize (s : Scenario) : Except ScenarioError Json := do
  return (← s.build).toJson

/-- The text of the document, indented or not. -/
def toText (s : Scenario) (pretty : Bool) : Except ScenarioError String := do
  return (← s.serialize).render (.ofPretty pretty)

end Testbed.Scenario

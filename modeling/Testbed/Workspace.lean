/-
Working on several scenarios at once.

A workspace keeps scenarios and handles under names, and the counter from which all its
scenarios get their identities.  A command names what it works on; names are looked up
first, and a command that fails leaves the workspace as it was.  Every way to use the
library on scenarios is a sequence of such commands.
-/
import Testbed.Scenario.Build
import Testbed.Document.Reading
import Testbed.Validation

namespace Testbed

/-- Scenarios and handles by name. -/
structure Workspace where
  counter : IdentityCounter
  scenarios : List (String × Scenario)
  handles : List (String × Handle)

/-- Why a command fails. -/
inductive CommandError where
  | scenario (cause : ScenarioError)
  /-- A word that is no kind of operations. -/
  | unknownKind (cause : UnknownWord)
  /-- A document that cannot be read back. -/
  | document (fault : Json.Fault)
  /-- A name under which the workspace keeps nothing. -/
  | missing (name : String)

/-- The message for a command that fails. -/
def CommandError.message : CommandError → String
  | scenario cause => cause.message
  | unknownKind cause => cause.brief
  | document fault => Document.readingError fault
  | missing name => "nothing is kept as '" ++ name ++ "'"

/-- A wait, with handles by name. -/
structure WaitRequest where
  launched : List String
  finished : List String
  delay : Option Duration

/-- A scenario to launch, with an embedded one by name. -/
inductive LaunchTarget where
  | known (name : String)
  | embedded (name : String)

/-- A payload, with handles and scenarios by name. -/
inductive PayloadRequest where
  | startJob (launch : JobLaunch)
  | stopJob (target : String)
  | stopJobs (targets : List String)
  | startScenario (target : LaunchTarget) (arguments : NamedTokens)
  | stopScenario (target : String)
  | reboot (entity : Token)
  | branch (condition : Condition)
  | loop (condition : Condition)

/-- What can be done in a workspace. -/
inductive WorkspaceCommand where
  | create (as name description : String)
  | clone (source as : String)
  | addArgument (scenario name description : String)
  | addConstant (scenario name : String) (value : Json)
  | addOperation (scenario kind as : String) (wait : WaitRequest)
  | handleAt (scenario : String) (index : Nat) (as : String)
  | sameHandle (left right : String)
  | addWaits (scenario operation : String) (launched finished : List String)
  | setWait (scenario operation : String) (wait : WaitRequest)
  | setLabel (scenario operation label : String)
  | configure (scenario operation : String) (payload : PayloadRequest)
  | configureCondition (scenario operation : String) (condition : Condition)
  | configureBody (scenario operation : String) (body : Operation.Body) (operations : List String)
  | owns (scenario operation : String)
  | operation (scenario operation : String)
  | scenario (scenario : String)
  | build (scenario : String) (pretty : Bool)
  | serialize (scenario : String)
  | validate (scenario : String)
  | roundTrip (scenario : String)

/-- What a command answers. -/
inductive WorkspaceAnswer where
  | done
  | added (index size : Nat)
  | position (index : Nat)
  | verdict (holds : Bool)
  | references (count : Nat)
  | operation (operation : Operation Scenario)
  | scenario (scenario : Scenario)
  | text (text : String)
  | report (report : ValidationReport)

namespace Workspace

/-- Nothing is kept, and no identity has been given out. -/
def empty : Workspace := ⟨1, [], []⟩

/-! ### Looking up and keeping -/

/-- The scenario kept under a name. -/
def scenario (w : Workspace) (name : String) : Except CommandError Scenario :=
  match Keyed.get? name w.scenarios with
  | some s => .ok s
  | none => .error (.missing name)

/-- The handle kept under a name. -/
def handle (w : Workspace) (name : String) : Except CommandError Handle :=
  match Keyed.get? name w.handles with
  | some h => .ok h
  | none => .error (.missing name)

/-- The handles kept under several names. -/
def handlesOf (w : Workspace) (names : List String) : Except CommandError (List Handle) :=
  names.mapM w.handle

/-- Keeps a scenario under a name, instead of what was kept there. -/
def keep (w : Workspace) (name : String) (s : Scenario) : Workspace :=
  { w with scenarios := Keyed.insert name s w.scenarios }

/-- Keeps a handle under a name, instead of what was kept there. -/
def keepHandle (w : Workspace) (name : String) (h : Handle) : Workspace :=
  { w with handles := Keyed.insert name h w.handles }

/-- Makes a scenario that needs identities, and keeps it under a name. -/
def mint (w : Workspace) (name : String) (make : StateM IdentityCounter Scenario) : Workspace :=
  let (s, counter) := make.run w.counter
  { w with counter := counter }.keep name s

/-- An error of a scenario as the failure of a command. -/
def lift {α : Type} : Except ScenarioError α → Except CommandError α
  | .ok a => .ok a
  | .error e => .error (.scenario e)

/-! ### Requests -/

/-- The wait that a request asks for. -/
def waitOf (w : Workspace) (r : WaitRequest) : Except CommandError Wait := do
  let launched ← w.handlesOf r.launched
  let finished ← w.handlesOf r.finished
  let wait := (Wait.immediate.onLaunched launched).onFinished finished
  return match r.delay with
    | some delay => wait.withDelay delay
    | none => wait

/-- A scenario launch with its arguments set one by one. -/
def launchOf (scenario : SubScenario Scenario) (arguments : NamedTokens) : Payload Scenario :=
  .startScenario (arguments.foldl (fun l (name, token) => l.argument name token) (.new scenario))

/-- The payload that a request asks for, and the counter behind the identities of a scenario
that is sent along, which is a copy made now. -/
def payloadOf (w : Workspace) : PayloadRequest →
    Except CommandError (Payload Scenario × IdentityCounter)
  | .startJob launch => return (.startJob launch, w.counter)
  | .stopJob target => return (.stopJob (← w.handle target), w.counter)
  | .stopJobs targets => return (.stopJobs (← w.handlesOf targets), w.counter)
  | .startScenario (.known name) arguments => return (launchOf (.named name) arguments, w.counter)
  | .startScenario (.embedded name) arguments => do
    let (copy, counter) := (← w.scenario name).clone.run w.counter
    return (launchOf (.embedded copy) arguments, counter)
  | .stopScenario target => return (.stopScenario (← w.handle target), w.counter)
  | .reboot entity => return (.reboot entity, w.counter)
  | .branch condition => return (.branch condition, w.counter)
  | .loop condition => return (.loop condition, w.counter)

/-! ### Commands -/

/-- Changes an operation of a scenario. -/
def change (w : Workspace) (scenario operation : String)
    (f : Operation Scenario → Except ScenarioError (Operation Scenario)) :
    Except CommandError Workspace := do
  let s ← w.scenario scenario
  let h ← w.handle operation
  let changed ← lift (s.modifyOperation h f)
  return w.keep scenario changed

/-- Changes the wait of an operation. -/
def changeWait (w : Workspace) (scenario operation : String) (f : Wait → Wait) :
    Except CommandError Workspace :=
  w.change scenario operation fun op => .ok { op with wait := f op.wait }

/-- The operation that a handle of a scenario points at. -/
def lookUp (w : Workspace) (scenario operation : String) :
    Except CommandError (Operation Scenario) := do
  let s ← w.scenario scenario
  let h ← w.handle operation
  lift (s.operation h)

/-- The document of a scenario. -/
def document (w : Workspace) (scenario : String) : Except CommandError Document := do
  let s ← w.scenario scenario
  lift s.build

/-- Whether the document of a scenario is read back from its indented text as it was. -/
def roundTrips (d : Document) : Except CommandError Bool :=
  match Document.ofText (d.toJson.render .indented) with
  | .ok read => .ok (d.same read)
  | .error fault => .error (.document fault)

/-- Carries out a command: its answer, and the workspace that it leaves. -/
def run (w : Workspace) : WorkspaceCommand → Except CommandError (WorkspaceAnswer × Workspace)
  | .create as name description => return (.done, w.mint as (Scenario.new name description))
  | .clone source as => do
    let s ← w.scenario source
    return (.done, w.mint as s.clone)
  | .addArgument scenario name description => do
    let s ← w.scenario scenario
    return (.done, w.keep scenario (s.addArgument name description))
  | .addConstant scenario name value => do
    let s ← w.scenario scenario
    return (.done, w.keep scenario (s.addConstant name value))
  | .addOperation scenario kind as wait => do
    let s ← w.scenario scenario
    let wait ← w.waitOf wait
    match Kind.read kind with
    | .error cause => throw (.unknownKind cause)
    | .ok kind =>
      let (h, s) := s.addOperation kind wait
      return (.added h.index s.size, (w.keep scenario s).keepHandle as h)
  | .handleAt scenario index as => do
    let s ← w.scenario scenario
    match s.handles[index]? with
    | some h => return (.position h.index, w.keepHandle as h)
    | none => throw (.missing as)
  | .sameHandle left right => do
    let l ← w.handle left
    let r ← w.handle right
    return (.verdict (l == r), w)
  | .addWaits scenario operation launched finished => do
    let launched ← w.handlesOf launched
    let finished ← w.handlesOf finished
    let w ← w.changeWait scenario operation fun wait =>
      (wait.onLaunched launched).onFinished finished
    let op ← w.lookUp scenario operation
    return (.references op.wait.references.length, w)
  | .setWait scenario operation wait => do
    let wait ← w.waitOf wait
    return (.done, ← w.changeWait scenario operation fun _ => wait)
  | .setLabel scenario operation label => do
    return (.done, ← w.change scenario operation fun op => .ok (op.setLabel label))
  | .configure scenario operation payload => do
    let (payload, counter) ← w.payloadOf payload
    let w ← w.change scenario operation (·.configure payload)
    return (.done, { w with counter := counter })
  | .configureCondition scenario operation condition => do
    return (.done, ← w.change scenario operation (·.configureCondition condition))
  | .configureBody scenario operation body operations => do
    let handles ← w.handlesOf operations
    return (.done, ← w.change scenario operation (·.configureBody body handles))
  | .owns scenario operation => do
    let s ← w.scenario scenario
    let h ← w.handle operation
    return (.verdict (s.owns h), w)
  | .operation scenario operation => do return (.operation (← w.lookUp scenario operation), w)
  | .scenario scenario => do return (.scenario (← w.scenario scenario), w)
  | .build scenario pretty => do
    let s ← w.scenario scenario
    return (.text (← lift (s.toText pretty)), w)
  | .serialize scenario => do
    let s ← w.scenario scenario
    return (.text (← lift s.serialize).compact, w)
  | .validate scenario => do
    let d ← w.document scenario
    return (.report d.validate, w)
  | .roundTrip scenario => do
    let d ← w.document scenario
    return (.verdict (← roundTrips d), w)

end Workspace

end Testbed

/-
Scenarios: a list of operations and the names they may use.

Every scenario has an identity of its own, and a handle is good for the scenario that
issued it.  A copy gets a new identity, but it remembers what it was copied from and
how many operations there were: handles from before the copy are good for both, later
ones only for the scenario that issued them.  Scenarios embedded in the operations of
a copy are copies too.  Identities come from a counter that the caller keeps.
-/
import Testbed.Operation

namespace Testbed

/-- A scenario that another one was copied from, and how many operations it had then. -/
structure Ancestor where
  identity : Nat
  boundary : Nat
deriving DecidableEq

/-- A named graph of operations. -/
structure Scenario where
  identity : Nat
  ancestry : List Ancestor
  name : String
  description : String
  /-- Names to be given a value at launch, with their descriptions. -/
  arguments : List (String × String)
  /-- Names that stand for a value. -/
  constants : Members
  operations : List (Operation Scenario)

/-- A number of identities that have been given out. -/
abbrev IdentityCounter := Nat

/-- Takes an identity that nobody has. -/
def takeIdentity : StateM IdentityCounter Nat := modifyGet fun n => (n, n + 1)

namespace Scenario

/-- A scenario without operations. -/
def new (name description : String) : StateM IdentityCounter Scenario := do
  let identity ← takeIdentity
  return ⟨identity, [], name, description, [], [], []⟩

/-- Declares an argument.  Whether its name is free is left to the build. -/
def addArgument (s : Scenario) (name description : String) : Scenario :=
  { s with arguments := s.arguments ++ [(name, description)] }

/-- Declares a constant.  Whether its name is free is left to the build. -/
def addConstant (s : Scenario) (name : String) (value : Json) : Scenario :=
  { s with constants := s.constants ++ [(name, value)] }

/-- How many operations there are. -/
def size (s : Scenario) : Nat := s.operations.length

/-- The handle that the scenario issues for a position. -/
def handleAt (s : Scenario) (index : Nat) : Handle := ⟨s.identity, index⟩

/-- The handles of all operations, in order. -/
def handles (s : Scenario) : List Handle := (List.range s.size).map s.handleAt

/-- Adds an operation at the end, and issues its handle. -/
def addOperation (s : Scenario) (kind : Kind) (wait : Wait) : Handle × Scenario :=
  (s.handleAt s.size, { s with operations := s.operations ++ [.new kind wait] })

/-- Whether a handle was issued by this scenario, or by one it was copied from before the
copy was made. -/
def owns (s : Scenario) (h : Handle) : Bool :=
  h.index < s.size &&
    (h.scenario == s.identity ||
      s.ancestry.any fun a => a.identity == h.scenario && h.index < a.boundary)

/-- The position of the operation that a handle points at. -/
def resolve (s : Scenario) (h : Handle) : Except ScenarioError Nat :=
  if s.owns h then .ok h.index else .error (.foreignOperation s.name h.index)

/-- The operation that a handle points at. -/
def operation (s : Scenario) (h : Handle) : Except ScenarioError (Operation Scenario) := do
  let index ← s.resolve h
  match s.operations[index]? with
  | some op => return op
  | none => throw (.foreignOperation s.name h.index)

/-- Changes the operation that a handle points at; a refused change changes nothing. -/
def modifyOperation (s : Scenario) (h : Handle)
    (change : Operation Scenario → Except ScenarioError (Operation Scenario)) :
    Except ScenarioError Scenario := do
  let op ← s.operation h
  let changed ← change op
  return { s with operations := s.operations.set h.index changed }

/-- The names that tokens of this scenario may refer to. -/
def declarations (s : Scenario) : Declarations :=
  .ofLists (s.arguments.map Prod.fst) s.constants

mutual

/-- A copy with an identity of its own. -/
def clone : Scenario → StateM IdentityCounter Scenario
  | ⟨identity, ancestry, name, description, arguments, constants, operations⟩ => do
    let fresh ← takeIdentity
    let copies ← cloneOperations operations
    return ⟨fresh, ancestry ++ [⟨identity, operations.length⟩], name, description, arguments,
      constants, copies⟩

/-- Copies of operations: the scenarios they carry are copied, the handles they hold are
kept. -/
def cloneOperations : List (Operation Scenario) → StateM IdentityCounter (List (Operation Scenario))
  | [] => return []
  | ⟨kind, label, some (.startScenario ⟨.embedded s, arguments⟩), wait, first, second⟩ :: rest => do
    let copy ← s.clone
    let copies ← cloneOperations rest
    return ⟨kind, label, some (.startScenario ⟨.embedded copy, arguments⟩), wait, first, second⟩
      :: copies
  | op :: rest => do
    let copies ← cloneOperations rest
    return op :: copies

end

end Scenario

/-- The name of a scenario to launch. -/
def SubScenario.name : SubScenario Scenario → String
  | named name => name
  | embedded scenario => scenario.name

end Testbed

/-
What can be wrong with a scenario.

Two of the causes are met while a scenario is put together: an operator that makes no
condition and a payload of the wrong kind.  A handle from elsewhere is met wherever a
handle is used.  All others are met when the scenario is built.
-/
import Testbed.Condition
import Testbed.Kind
import Testbed.Json.Fault

namespace Testbed

/-- The tables in which a name may be declared twice. -/
inductive NameTable where
  | arguments
  | constants
  /-- Declared once in each table. -/
  | both
deriving DecidableEq

/-- How messages name a table. -/
def NameTable.text : NameTable → String
  | arguments => "argument"
  | constants => "constant"
  | both => "argument and constant"

/-- What is wrong with a scenario. -/
inductive ScenarioError where
  | invalidOperator (cause : InvalidOperator)
  | payloadMismatch (expected found : Kind)
  | foreignOperation (scenario : String) (index : Nat)
  | unknownReference (name : String) (operation : Nat)
  | duplicateName (table : NameTable) (name : String)
  | selfWait (operation : Nat)
  | waitCycle (cycle : List Nat)
  | unconfigured (operation : Nat) (kind : Kind)
  | invalidTarget (operation target : Nat) (expected found : Kind)
  | reservedJobName (operation : Nat) (job : String)
  /-- A scenario embedded in an operation is itself wrong. -/
  | subScenario (name : String) (operation : Nat) (source : ScenarioError)
  | serialization (fault : Json.Fault)

/-- How messages name an operation by its number. -/
def operationText (number : Nat) : String := "#" ++ toString number

/-- The message for an error.  That of an embedded scenario comes behind the way to it. -/
def ScenarioError.message : ScenarioError → String
  | invalidOperator cause => "invalid operator '" ++ cause.operator ++ "': " ++ cause.reason
  | payloadMismatch expected found =>
    "payload mismatch: operation is '" ++ expected.tag ++ "' but was configured as '" ++ found.tag
      ++ "'"
  | foreignOperation scenario index =>
    "operation handle " ++ operationText index ++ " does not belong to scenario '" ++ scenario
      ++ "'"
  | unknownReference name operation =>
    "unknown reference '" ++ reference name ++ "' in operation " ++ operationText operation
  | duplicateName table name => "duplicate " ++ table.text ++ " name '" ++ name ++ "'"
  | selfWait operation => "operation " ++ operationText operation ++ " waits on itself"
  | waitCycle cycle =>
    "wait cycle between operations " ++ " -> ".intercalate (cycle.map operationText)
  | unconfigured operation kind =>
    "operation " ++ operationText operation ++ " (" ++ kind.tag ++ ") was never configured"
  | invalidTarget operation target expected found =>
    "operation " ++ operationText operation ++ " can only target '" ++ expected.tag
      ++ "' operations, but " ++ operationText target ++ " is '" ++ found.tag ++ "'"
  | reservedJobName operation job =>
    "operation " ++ operationText operation ++ " starts job '" ++ job
      ++ "', which is a reserved payload key"
  | subScenario name operation source =>
    "sub-scenario '" ++ name ++ "' in operation " ++ operationText operation ++ ": "
      ++ source.message
  | serialization fault => "serialization error: " ++ fault.message

/-- An unknown name, met in an operation. -/
def UnknownName.inOperation (e : UnknownName) (operation : Nat) : ScenarioError :=
  .unknownReference e.name operation

end Testbed

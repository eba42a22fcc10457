/-
Putting a scenario together step by step.

An edit is a sequence of steps on one scenario.  A step that is refused ends the edit
with its error.
-/
import Testbed.Scenario.Basic

namespace Testbed.Scenario

/-- Steps on a scenario. -/
abbrev Edit (α : Type) := StateT Scenario (Except ScenarioError) α

namespace Edit

/-- Declares an argument. -/
def argument (name description : String) : Edit Unit := modify (·.addArgument name description)

/-- Declares a constant. -/
def constant (name : String) (value : Json) : Edit Unit := modify (·.addConstant name value)

/-- Adds an operation. -/
def operation (kind : Kind) (wait : Wait) : Edit Handle := modifyGet (·.addOperation kind wait)

/-- Changes an operation. -/
def change (h : Handle) (f : Operation Scenario → Except ScenarioError (Operation Scenario)) :
    Edit Unit := do
  let s ← get
  let changed ← s.modifyOperation h f
  set changed

/-- Sets the payload of an operation. -/
def configure (h : Handle) (payload : Payload Scenario) : Edit Unit :=
  change h (·.configure payload)

/-- Sets the condition of a branch or a loop. -/
def condition (h : Handle) (c : Condition) : Edit Unit := change h (·.configureCondition c)

/-- Sets a body of a branch or a loop. -/
def body (h : Handle) (body : Operation.Body) (handles : List Handle) : Edit Unit :=
  change h (·.configureBody body handles)

/-- Labels an operation. -/
def label (h : Handle) (text : String) : Edit Unit := change h fun op => .ok (op.setLabel text)

end Edit

/-- Applies an edit to a scenario. -/
def edit (s : Scenario) (steps : Edit Unit) : Except ScenarioError Scenario := do
  let (_, edited) ← steps.run s
  return edited

end Testbed.Scenario

/-
Checking documents.

Errors are what the testbed would refuse, warnings what is probably not meant.  The
checks run one after the other over the whole document, and none keeps another from
running: numbers and names, then references, then cycles of waits, then tokens, then
bodies.  A document that was built from a scenario passes all checks for errors on
references by construction; the checks are for documents from elsewhere.
-/
import Testbed.Document.Basic
import Testbed.Token
import Testbed.WaitGraph

namespace Testbed

/-- The places in which a function refers to others. -/
inductive ReferenceField where
  | launched
  | finished
  | ifTrue
  | ifFalse
  | eachRound
  | atEnd
  | stopTarget
  | stopTargets
deriving DecidableEq

/-- The key of a place on the wire. -/
def ReferenceField.tag : ReferenceField → String
  | launched => "launched_ids"
  | finished => "finished_ids"
  | ifTrue => "openbach_functions_true"
  | ifFalse => "openbach_functions_false"
  | eachRound => "openbach_functions_while"
  | atEnd => "openbach_functions_end"
  | stopTarget => "openbach_function_id"
  | stopTargets => "openbach_function_ids"

/-- What the testbed would refuse in a document. -/
inductive ValidationError where
  /-- A function whose number is not its position. -/
  | idMismatch (position id : Nat)
  /-- A name declared in both tables. -/
  | duplicateName (name : String)
  /-- A reference to a number that no function has. -/
  | unknownFunction (function : Nat) (field : ReferenceField) (referenced : Nat)
  | selfWait (function : Nat)
  | waitCycle (cycle : List Nat)
  | invalidStopTarget (function target : Nat) (expected found : Kind)
  | undeclaredToken (function : Nat) (name : String)
deriving DecidableEq

/-- What is probably not meant in a document. -/
inductive ValidationWarning where
  /-- A function in the bodies of several others. -/
  | sharedBody (function : Nat) (owners : List Nat)
  /-- A branch or a loop with nothing to run. -/
  | emptyBodies (function : Nat) (kind : Kind)
  | unusedArgument (name : String)
deriving DecidableEq

/-- Numbers in a row. -/
def joinIds (separator : String) (ids : List Nat) : String :=
  separator.intercalate (ids.map toString)

/-- The message for an error, behind its code. -/
def ValidationError.message : ValidationError → String
  | idMismatch position id =>
    "[E001] Function at position " ++ toString position ++ " has id " ++ toString id
      ++ "; ids must match positions"
  | duplicateName name =>
    "[E002] '" ++ name ++ "' is declared both as an argument and as a constant"
  | unknownFunction function field referenced =>
    "[E010] Function " ++ toString function ++ " references unknown function "
      ++ toString referenced ++ " in '" ++ field.tag ++ "'"
  | selfWait function => "[E011] Function " ++ toString function ++ " waits on itself"
  | waitCycle cycle => "[E012] Wait cycle: " ++ joinIds " -> " cycle
  | invalidStopTarget function target expected found =>
    "[E013] Function " ++ toString function ++ " must target a '" ++ expected.tag
      ++ "' function, but " ++ toString target ++ " is '" ++ found.tag ++ "'"
  | undeclaredToken function name =>
    "[E020] Function " ++ toString function ++ " uses '" ++ reference name
      ++ "' which is neither an argument nor a constant"

/-- The message for a warning, behind its code. -/
def ValidationWarning.message : ValidationWarning → String
  | sharedBody function owners =>
    "[W001] Function " ++ toString function ++ " appears in the bodies of functions "
      ++ joinIds ", " owners
  | emptyBodies function kind =>
    "[W002] '" ++ kind.tag ++ "' function " ++ toString function ++ " has both bodies empty"
  | unusedArgument name => "[W003] Argument '" ++ name ++ "' is never referenced"

/-- All that was found in a document. -/
structure ValidationReport where
  errors : List ValidationError
  warnings : List ValidationWarning

/-- Whether nothing was found that the testbed would refuse. -/
def ValidationReport.isOk (r : ValidationReport) : Bool := r.errors.isEmpty

/-! ### Names in values -/

mutual

/-- The names that placeholders in a value refer to, each once, behind those already found. -/
def Json.placeholders (names : List String) : Json → List String
  | .string s =>
    match placeholderName? s with
    | some name => if names.contains name then names else names ++ [name]
    | none => names
  | .array items => placeholdersOfItems names items
  | .object members => placeholdersOfMembers names members
  | .null => names
  | .boolean _ => names
  | .number _ => names

/-- The names in a list of values. -/
def Json.placeholdersOfItems (names : List String) : List Json → List String
  | [] => names
  | v :: rest => placeholdersOfItems (placeholders names v) rest

/-- The names in the values of members; keys are not looked at. -/
def Json.placeholdersOfMembers (names : List String) : List (String × Json) → List String
  | [] => names
  | (_, v) :: rest => placeholdersOfMembers (placeholders names v) rest

end

namespace Document

/-! ### Numbers and names -/

/-- The functions from a position on whose number is not their position. -/
def idErrors : (position : Nat) → List Function → List ValidationError
  | _, [] => []
  | position, f :: rest =>
    (if f.id = position then [] else [.idMismatch position f.id]) ++ idErrors (position + 1) rest

/-- The arguments that are constants too. -/
def nameErrors (d : Document) : List ValidationError :=
  ((Keyed.keys d.arguments).filter (Keyed.has · d.constants)).map .duplicateName

/-! ### References -/

/-- The kind of the last function with a number. -/
def kindOf? (d : Document) (id : Nat) : Option Kind :=
  (d.functions.reverse.find? fun f => f.id == id).map fun f => f.action.kind

/-- Every reference of a function, with its place. -/
def Function.references (f : Function) : List (ReferenceField × Nat) :=
  f.wait.launched.map (.launched, ·) ++ f.wait.finished.map (.finished, ·) ++
    match f.action with
    | .branch _ whenTrue whenFalse => whenTrue.map (.ifTrue, ·) ++ whenFalse.map (.ifFalse, ·)
    | .loop _ eachRound atEnd => eachRound.map (.eachRound, ·) ++ atEnd.map (.atEnd, ·)
    | .stopJob target => [(.stopTarget, target)]
    | .stopScenario target => [(.stopTarget, target)]
    | .stopJobs targets => targets.map (.stopTargets, ·)
    | _ => []

/-- The references of a function that lead nowhere. -/
def danglingErrors (d : Document) (f : Function) : List ValidationError :=
  (f.references.filter fun (_, id) => (d.kindOf? id).isNone).map fun (field, id) =>
    .unknownFunction f.id field id

/-- The report of a function that waits on itself. -/
def selfWaitErrors (f : Function) : List ValidationError :=
  if f.wait.references.contains f.id then [.selfWait f.id] else []

/-- The targets of a stop function that exist but are of the wrong kind. -/
def targetErrors (d : Document) (f : Function) : List ValidationError :=
  match f.action.kind.stopTarget? with
  | none => []
  | some expected =>
    f.action.targets.filterMap fun target =>
      match d.kindOf? target with
      | some found =>
        if found = expected then none else some (.invalidStopTarget f.id target expected found)
      | none => none

/-- All errors on the references of the functions. -/
def referenceErrors (d : Document) : List ValidationError :=
  d.functions.flatMap fun f => d.danglingErrors f ++ selfWaitErrors f ++ d.targetErrors f

/-! ### Cycles -/

/-- The position of the last function with a number. -/
def positionOf? (d : Document) (id : Nat) : Option Nat :=
  (d.functions.reverse.findIdx? fun f => f.id == id).map fun i => d.functions.length - 1 - i

/-- The positions that the function at a position waits on; references to itself and to
nothing are reported elsewhere and left out. -/
def dependencies (d : Document) (position : Nat) (f : Function) : List Nat :=
  (f.wait.references.filterMap d.positionOf?).filter (· != position)

/-- Which functions each function waits on, by position. -/
def waitGraph (d : Document) : WaitGraph :=
  d.functions.mapIdx d.dependencies

/-- The number of the function at a position. -/
def idAt (d : Document) (position : Nat) : Nat :=
  match d.functions[position]? with
  | some f => f.id
  | none => position

/-- The report of the first cycle, if there is one. -/
def cycleErrors (d : Document) : List ValidationError :=
  match d.waitGraph.findCycle with
  | some cycle => [.waitCycle (cycle.map d.idAt)]
  | none => []

/-! ### Tokens -/

/-- The names that a function refers to, each once.  A scenario that is sent along has names of
its own, so of a scenario launch only the arguments count. -/
def Function.names (f : Function) : List String :=
  match f.action with
  | .startScenario _ arguments => Json.placeholdersOfMembers [] arguments
  | action => Json.placeholders [] action.toJson

/-- Whether a name is declared in one of the tables. -/
def declares (d : Document) (name : String) : Bool :=
  Keyed.has name d.arguments || Keyed.has name d.constants

/-- The undeclared names of a function. -/
def undeclaredErrors (d : Document) (f : Function) : List ValidationError :=
  (f.names.filter fun name => !d.declares name).map (.undeclaredToken f.id)

/-- The undeclared names of all functions. -/
def tokenErrors (d : Document) : List ValidationError := d.functions.flatMap d.undeclaredErrors

/-- The arguments that no function refers to. -/
def argumentWarnings (d : Document) : List ValidationWarning :=
  let used := d.functions.flatMap Function.names
  ((Keyed.keys d.arguments).filter fun name => !used.contains name).map .unusedArgument

/-! ### Bodies -/

/-- The members of both bodies of a function. -/
def Function.members (f : Function) : List Nat :=
  match f.action.bodies? with
  | some (first, second) => first ++ second
  | none => []

/-- The branches and loops with nothing to run. -/
def emptyBodyWarnings (d : Document) : List ValidationWarning :=
  d.functions.filterMap fun f =>
    match f.action.bodies? with
    | some ([], []) => some (.emptyBodies f.id f.action.kind)
    | _ => none

/-- Inserts a number into an ascending list, unless it is there. -/
def insertAscending (n : Nat) : List Nat → List Nat
  | [] => [n]
  | m :: rest =>
    if n < m then n :: m :: rest
    else if n = m then m :: rest
    else m :: insertAscending n rest

/-- All members of bodies, each once, in ascending order. -/
def allMembers (d : Document) : List Nat :=
  (d.functions.flatMap Function.members).foldl (fun found n => insertAscending n found) []

/-- Appends a number to a list, unless it is there. -/
def appendNew (found : List Nat) (n : Nat) : List Nat :=
  if found.contains n then found else found ++ [n]

/-- The numbers of the functions that have a member in their bodies, each once, in the order of
the functions. -/
def ownersOf (d : Document) (member : Nat) : List Nat :=
  ((d.functions.filter fun f => f.members.contains member).map Function.id).foldl appendNew []

/-- The members that several functions have in their bodies. -/
def sharedBodyWarnings (d : Document) : List ValidationWarning :=
  d.allMembers.filterMap fun member =>
    let owners := d.ownersOf member
    if 1 < owners.length then some (.sharedBody member owners) else none

/-! ### All checks -/

/-- Everything that is found in a document. -/
def validate (d : Document) : ValidationReport where
  errors := idErrors 0 d.functions ++ d.nameErrors ++ d.referenceErrors ++ d.cycleErrors
    ++ d.tokenErrors
  warnings := d.argumentWarnings ++ d.emptyBodyWarnings ++ d.sharedBodyWarnings

end Document

end Testbed

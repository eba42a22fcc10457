/-
The schema of documents.

It describes the form that `Document.toJson` writes, one definition a record, with the
names of properties and definitions in ascending order.  It ends with the catalogues of
the words that documents use.
-/
import Testbed.Schema.Basic
import Testbed.Document.Basic
import Testbed.Condition

namespace Testbed.Schema

/-! ### Recurring parts -/

/-- A value of any kind. -/
def anything (description : String) : Schema := { description := some description }

/-- A string. -/
def text (description : String) : Schema :=
  { description := some description, types := [.string] }

/-- The number of a function. -/
def id : Schema :=
  { types := [.integer], format := some "uint", minimum := some (.float (.zero false)) }

/-- A duration in seconds. -/
def seconds (description : String) : Schema :=
  { description := some description, types := [.number], format := some "double" }

/-- The numbers of functions. -/
def ids (description : String) : Schema :=
  { description := some description, types := [.array], items := some id }

/-- The numbers of functions, none if they are left out. -/
def optionalIds (description : String) : Schema :=
  { ids description with default := some (.array []) }

/-- A table of values by name, empty if it is left out. -/
def table (description : String) : Schema :=
  { description := some description, default := some (.object []), types := [.object],
    additional := some true }

/-- A value that a definition describes. -/
def defined (name : String) : Schema := { definition := some name }

/-- A part with a default that a definition describes. -/
def definedPart (description : String) (default : Json) (name : String) : Schema :=
  { description := some description, default := some default, allOf := [defined name] }

/-- An object with properties, some of them required. -/
def record (description : String) (required : List String) (properties : List (String × Schema)) :
    Schema :=
  { description := some description, types := [.object], required := required,
    properties := properties }

/-! ### Definitions -/

/-- The definition that describes the payloads of a kind.  Jobs and scenarios are stopped by the
same payload. -/
def payloadName : Kind → String
  | .startJob => "StartJobInstanceDocument"
  | .stopJob => "StopFunctionDocument"
  | .stopJobs => "StopFunctionsDocument"
  | .startScenario => "StartScenarioInstanceDocument"
  | .stopScenario => "StopFunctionDocument"
  | .reboot => "RebootDocument"
  | .branch => "IfDocument"
  | .loop => "WhileDocument"

/-- An object whose only key is the name of a kind. -/
def actionVariant (kind : Kind) : Schema :=
  { types := [.object], required := [kind.tag],
    properties := [(kind.tag, defined (payloadName kind))], additional := some false }

/-- A function: its own properties, and exactly one action beside them. -/
def function : Schema :=
  { record "One operation of the scenario." ["id", "label"] [
      ("id", { id with description := some "Position of the operation in `openbach_functions`" }),
      ("label", text "Human-readable label, `#<id>` unless customized"),
      ("on_fail", definedPart "Failure policy, always empty" (.object []) "OnFailDocument"),
      ("wait", definedPart "Scheduling dependencies" Document.Wait.immediate.toJson "WaitDocument")]
    with oneOf := Kind.all.map actionVariant }

/-- The payload of a branch. -/
def branch : Schema :=
  record "`if` payload." ["condition"] [
    ("condition", anything "Condition tree"),
    ("openbach_functions_false", optionalIds "Ids run when the condition does not hold"),
    ("openbach_functions_true", optionalIds "Ids run when the condition holds")]

/-- The failure policy of a function. -/
def failure : Schema :=
  record "Failure policy block. Reserved; always `\x7b\x7d`." [] []

/-- The payload of a reboot. -/
def reboot : Schema :=
  record "`reboot` payload." ["entity_name"] [("entity_name", anything "Entity (agent) to reboot")]

/-- The payload of a job.  The arguments stand under the name of the job, which no property can
declare. -/
def job : Schema :=
  { record ("`start_job_instance` payload.\n\n"
        ++ "The job arguments sit under a key named after the job: "
        ++ "```json \x7b\"entity_name\": \"Agent A\", \"offset\": 0, "
        ++ "\"fping\": \x7b\"destination_ip\": \"$dst\"\x7d\x7d ```")
      ["entity_name", "offset"] [
        ("entity_name", anything "Entity (agent) running the job"),
        ("interval", { seconds "Restart period in seconds" with types := [.number, .null] }),
        ("offset", seconds "Delay in seconds applied by the agent before starting the job")]
    with additional := some true }

/-- The payload of a scenario launch. -/
def launch : Schema :=
  record "`start_scenario_instance` payload." ["scenario_name"] [
    ("arguments", table "Values given to the sub-scenario arguments"),
    ("scenario_name", anything "Scenario name, or the whole embedded scenario document")]

/-- The payload that stops one job or one scenario. -/
def stop : Schema :=
  record "`stop_job_instance` / `stop_scenario_instance` payload." ["openbach_function_id"] [
    ("openbach_function_id",
      { id with description := some "Id of the operation whose job or scenario is stopped" })]

/-- The payload that stops several jobs. -/
def stops : Schema :=
  record "`stop_job_instances` payload." ["openbach_function_ids"] [
    ("openbach_function_ids", ids "Ids of the operations whose jobs are stopped")]

/-- When a function may start. -/
def wait : Schema :=
  record "Scheduling dependencies of an operation." ["time"] [
    ("finished_ids", optionalIds "Ids that must have finished"),
    ("launched_ids", optionalIds "Ids that must have been launched"),
    ("time", seconds "Delay in seconds applied once the references are satisfied")]

/-- The payload of a loop. -/
def loop : Schema :=
  record "`while` payload." ["condition"] [
    ("condition", anything "Condition tree, evaluated before each iteration"),
    ("openbach_functions_end", optionalIds "Ids run once the loop exits"),
    ("openbach_functions_while", optionalIds "Ids run on each iteration")]

/-- All definitions by name. -/
def definitions : List (String × Schema) :=
  [("FunctionDocument", function), ("IfDocument", branch), ("OnFailDocument", failure),
    ("RebootDocument", reboot), ("StartJobInstanceDocument", job),
    ("StartScenarioInstanceDocument", launch), ("StopFunctionDocument", stop),
    ("StopFunctionsDocument", stops), ("WaitDocument", wait), ("WhileDocument", loop)]

/-- A document, which points at the definitions. -/
def document : Schema :=
  record "A built scenario, ready to be sent to the controller." ["name"] [
    ("arguments", table "Launch-time arguments, name to description, in declaration order"),
    ("constants", table "Build-time constants, name to value, in declaration order"),
    ("description", { text "Free-form description" with default := some (.string "") }),
    ("name", text "Scenario name"),
    ("openbach_functions",
      { description := some "Operations; `openbach_functions[i].id == i`",
        default := some (.array []), types := [.array],
        items := some (defined "FunctionDocument") })]

/-! ### The published schema -/

/-- The catalogues of words: version, kinds, operators and operands. -/
def catalogues : Members :=
  [("version", .string Document.wireFormatVersion),
    ("operationKinds", strings (Kind.all.map Kind.tag)),
    ("conditionOperators", strings operatorTags),
    ("operandTypes", strings Operand.tags)]

/-- The schema of documents as it is published. -/
def wire : Json :=
  .object ([("$schema", .string "http://json-schema.org/draft-07/schema#"),
      ("title", .string "ScenarioDocument")]
    ++ document.toMembers
    ++ [("definitions", .object (propertiesToMembers definitions))]
    ++ catalogues)

end Testbed.Schema

/-
The command line tool.

It prints samples or writes them to files, checks documents, and prints the schema.  What
it was asked for goes to the standard output, everything else to the standard error.
-/
import Testbed.CommandLine.Arguments
import Testbed.CommandLine.Config
import Testbed.CommandLine.FileSystem
import Testbed.Document.Reading
import Testbed.Schema.Wire
import Testbed.Validation

namespace Testbed.Tool

/-- What a run leaves behind: an exit code and the lines on both outputs. -/
structure Outcome where
  exit : Nat
  output : List String
  diagnostics : List String
deriving DecidableEq

/-- What can go wrong in a run. -/
inductive Failure where
  | config (cause : ConfigError)
  | sample (sample : Sample) (cause : ScenarioError)
  | outputDirectory (dir : Path)
  | makingDirectory (dir : Path) (cause : FileError)
  | writing (path : Path) (cause : FileError)
  | reading (path : Path) (cause : FileError)
  | document (fault : Json.Fault)

/-- A path as messages show it. -/
def shown (p : Path) : String := Text.quoted p

/-- The message for a failure: what was being done, and what went wrong with it. -/
def Failure.message : Failure → String
  | config cause => cause.message
  | sample s cause => "building sample '" ++ s.tag ++ "': " ++ cause.message
  | outputDirectory dir => "output directory " ++ shown dir ++ " is not a directory"
  | makingDirectory dir cause => "creating output directory " ++ shown dir ++ ": " ++ cause.message
  | writing path cause => "writing " ++ shown path ++ ": " ++ cause.message
  | reading path cause => "reading scenario file " ++ shown path ++ ": " ++ cause.message
  | document fault => Document.readingError fault

/-- Success with lines on the standard output. -/
def printed (lines : List String) : Outcome := ⟨0, lines, []⟩

/-- The outcome of a failed run. -/
def failed (failure : Failure) : Outcome := ⟨1, [], ["Error: " ++ failure.message]⟩

variable {m : Type → Type} [Monad m]

/-- Writes a text to a file, making the directories that lead to it. -/
def writeFile (fs : FileSystem m) (path : Path) (text : String) : ExceptT Failure m Unit := do
  match path.parent?.filter fun dir => !dir.isEmpty with
  | none => pure ()
  | some dir =>
    if (← fs.isThere dir) && !(← fs.isDirectory dir) then throw (.outputDirectory dir)
    match ← fs.makeDirectories dir with
    | .ok () => pure ()
    | .error e => throw (.makingDirectory dir e)
  match ← fs.write path (text ++ "\n") with
  | .ok () => pure ()
  | .error e => throw (.writing path e)

/-- Prints a sample, or writes it where it belongs. -/
def runSample (fs : FileSystem m) (config : Config) (sample : Sample) (output : Option Path) :
    ExceptT Failure m Outcome := do
  let json ← match sample.scenario >>= Scenario.serialize with
    | .ok json => pure json
    | .error e => throw (.sample sample e)
  let text := config.render json
  match config.destination output sample.tag with
  | none => return printed [text]
  | some path => do
    writeFile fs path text
    return ⟨0, [], ["Wrote " ++ shown path]⟩

/-- The verdict on a document. -/
def verdict (d : Document) : Outcome :=
  let report := d.validate
  let warnings := toString report.warnings.length ++ " warnings"
  let found := report.warnings.map (fun w => "warning: " ++ w.message)
    ++ report.errors.map fun e => "error: " ++ e.message
  if report.isOk then
    let functions := toString d.functions.length ++ " functions"
    ⟨0, [d.name ++ ": valid (" ++ functions ++ ", " ++ warnings ++ ")"], found⟩
  else
    let errors := toString report.errors.length ++ " errors"
    ⟨1, [], found ++ [d.name ++ ": " ++ errors ++ ", " ++ warnings]⟩

/-- Checks the document in a file. -/
def runValidate (fs : FileSystem m) (file : Path) : ExceptT Failure m Outcome := do
  match ← fs.read file with
  | .error e => throw (.reading file e)
  | .ok text =>
    match Document.ofText text with
    | .error fault => throw (.document fault)
    | .ok d => return verdict d

/-- Answers a request.  The environment is looked at first, and options override it. -/
def answer (fs : FileSystem m) (environment : String → Option String) (r : Request) :
    ExceptT Failure m Outcome := do
  let config ← match Config.ofEnvironment environment with
    | .ok config => pure config
    | .error e => throw (.config e)
  let config := if r.pretty then config.withPretty true else config
  let config := match r.outputDir with
    | some dir => config.withOutputDir dir
    | none => config
  match r.command with
  | .sample sample output => runSample fs config sample output
  | .validate file => runValidate fs file
  | .schema => return printed [config.render Schema.wire]

/-- The line that tells the version. -/
def versionLine : String := "openbach-scenario 2.4.0"

/-- How the tool is called. -/
def usageLines : List String :=
  ["Build, validate and describe OpenBACH scenarios",
    "",
    "Usage: openbach-scenario [--pretty] [--output-dir <OUTPUT_DIR>] <COMMAND>",
    "",
    "Commands:",
    "  sample <if|while|nested> [--output <OUTPUT>]",
    "  validate <FILE>",
    "  schema"]

/-- A run of the tool.  Arguments that make no request never come to the environment. -/
def run (fs : FileSystem m) (environment : String → Option String) (arguments : List String) :
    m Outcome := do
  match Arguments.parse arguments with
  | .error .versionAsked => return printed [versionLine]
  | .error .helpAsked => return printed usageLines
  | .error .misuse => return ⟨2, [], usageLines⟩
  | .ok request =>
    match ← (answer fs environment request).run with
    | .ok outcome => return outcome
    | .error failure => return failed failure

end Testbed.Tool

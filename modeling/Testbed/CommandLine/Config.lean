/-
The settings of the command line tool.

They come from two environment variables, and options on the command line override them.
-/
import Testbed.Json.Printer
import Testbed.Text.Blank
import Testbed.CommandLine.Path

namespace Testbed

/-- Where and how documents are written. -/
structure Config where
  /-- Whether JSON is indented. -/
  pretty : Bool
  /-- Where samples go if no file is named; without it they are printed. -/
  outputDir : Option Path
deriving DecidableEq

/-- A setting that means nothing. -/
inductive ConfigError where
  | invalidPretty (value : String)
deriving DecidableEq

namespace Config

/-- The variable that asks for indented JSON. -/
def prettyVariable : String := "OPENBACH_SCENARIO_PRETTY"

/-- The variable that names the directory for samples. -/
def outputDirVariable : String := "OPENBACH_SCENARIO_OUTPUT_DIR"

/-- Reads a switch; blanks around it and the case of its letters do not count, and nothing at
all is off. -/
def switch? (value : String) : Option Bool :=
  let word := String.ofList ((Text.trim value.toList).map Char.toLower)
  if ["1", "true", "yes", "on"].contains word then some true
  else if ["0", "false", "no", "off", ""].contains word then some false
  else none

/-- The settings that an environment asks for. -/
def ofEnvironment (environment : String → Option String) : Except ConfigError Config := do
  let pretty ← match environment prettyVariable with
    | none => pure false
    | some value =>
      match switch? value with
      | some on => pure on
      | none => throw (.invalidPretty value)
  return ⟨pretty, (environment outputDirVariable).filter fun dir => !dir.isEmpty⟩

/-- The settings with JSON indented, or not. -/
def withPretty (c : Config) (pretty : Bool) : Config := { c with pretty := pretty }

/-- The settings with a directory for samples. -/
def withOutputDir (c : Config) (dir : Path) : Config := { c with outputDir := some dir }

/-- Where a document goes: to the file that is named, or to a file of its own name in the
directory for samples, or nowhere. -/
def destination (c : Config) (explicit : Option Path) (name : String) : Option Path :=
  match explicit with
  | some path => some path
  | none => c.outputDir.map fun dir => Path.join dir (name ++ ".json")

/-- A value as text. -/
def render (c : Config) (value : Json) : String := value.render (.ofPretty c.pretty)

end Config

/-- The message for a setting that means nothing. -/
def ConfigError.message : ConfigError → String
  | invalidPretty value => "invalid " ++ Config.prettyVariable ++ ": '" ++ value ++ "'"

end Testbed

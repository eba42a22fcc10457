/-
The arguments of the command line tool.

A command is `sample NAME`, `validate FILE` or `schema`.  The options for indentation and
for the directory may stand in front of the command or behind it; what stands behind it
counts.  An option may be given once on each side.  The value of an option is the next
argument, or follows an equals sign; a short option may have its value right behind it.
An argument that begins with a dash is never taken for a value, except the single dash,
and behind a double dash there are no options.  No value may be empty.
-/
import Testbed.Samples
import Testbed.CommandLine.Path

namespace Testbed

/-- What the tool is asked to do. -/
inductive Command where
  | sample (sample : Sample) (output : Option Path)
  | validate (file : Path)
  | schema
deriving DecidableEq

/-- A request to the tool. -/
structure Request where
  pretty : Bool
  outputDir : Option Path
  command : Command
deriving DecidableEq

/-- What arguments come to when they make no request. -/
inductive NoRequest where
  | versionAsked
  | helpAsked
  | misuse
deriving DecidableEq

/-- The commands by name. -/
inductive Verb where
  | sample
  | validate
  | schema
deriving DecidableEq

/-- The command of a name. -/
def Verb.ofText? (text : String) : Option Verb :=
  if text = "sample" then some sample
  else if text = "validate" then some validate
  else if text = "schema" then some schema
  else none

namespace Arguments

/-- What the arguments on one side of the command, or behind it, have said so far. -/
structure Said where
  pretty : Bool := false
  outputDir : Option Path := none
  output : Option Path := none
  operand : Option String := none

/-- The form of an argument. -/
inductive Form where
  /-- Two dashes alone. -/
  | separator
  /-- Two dashes and a name, perhaps with an equals sign and a value. -/
  | long (name : String) (value : Option String)
  /-- One dash and a letter, perhaps with more behind it. -/
  | short (letter : Char) (more : List Char)
  | plain

/-- The form that an argument has.  What stands behind the first equals sign is a value, and may
hold further ones. -/
def form (argument : String) : Form :=
  match argument.toList with
  | ['-', '-'] => .separator
  | '-' :: '-' :: body =>
    let name := body.takeWhile (· != '=')
    let value := match body.dropWhile (· != '=') with
      | _ :: value => some (String.ofList value)
      | [] => none
    .long (String.ofList name) value
  | '-' :: letter :: more => .short letter more
  | _ => .plain

/-- The value of an option, with what is left of the arguments. -/
def optionValue (attached : Option String) (rest : List String) :
    Except NoRequest (String × List String) :=
  match attached, rest with
  | some value, _ => if value.isEmpty then .error .misuse else .ok (value, rest)
  | none, next :: rest =>
    match form next with
    | .plain => if next.isEmpty then .error .misuse else .ok (next, rest)
    | _ => .error .misuse
  | none, [] => .error .misuse

/-- The value that is attached to a short option. -/
def attached? : List Char → Option String
  | [] => none
  | '=' :: value => some (String.ofList value)
  | value => some (String.ofList value)

/-- Sets what may be said only once. -/
def once (place : Option String) (value : String) : Except NoRequest (Option String) :=
  if place.isSome then .error .misuse else .ok (some value)

/-- Takes the option that both sides of the command know, if the argument is one. -/
def shared (said : Said) (name : String) (value : Option String) (rest : List String) :
    Except NoRequest (Said × List String) := do
  if name = "pretty" then
    if value.isSome || said.pretty then throw .misuse
    return ({ said with pretty := true }, rest)
  else if name = "output-dir" then
    let (dir, rest) ← optionValue value rest
    return ({ said with outputDir := ← once said.outputDir dir }, rest)
  else if name = "help" && value.isNone then throw .helpAsked
  else throw .misuse

/-- Takes the file to write a sample to. -/
def takeOutput (said : Said) (value : Option String) (rest : List String) :
    Except NoRequest (Said × List String) := do
  let (path, rest) ← optionValue value rest
  return ({ said with output := ← once said.output path }, rest)

/-- Takes the operand of a command. -/
def takeOperand (verb : Verb) (said : Said) (operand : String) : Except NoRequest Said := do
  match verb with
  | .schema => throw .misuse
  | .sample => if (Sample.ofTag? operand).isNone then throw .misuse
  | .validate => if operand.isEmpty then throw .misuse
  return { said with operand := ← once said.operand operand }

/-- Takes the arguments behind a command.  An option takes one argument or two, so as many
rounds as there are arguments are enough. -/
def behind (verb : Verb) : (rounds : Nat) → Said → List String → Except NoRequest Said
  | 0, said, _ => .ok said
  | _, said, [] => .ok said
  | rounds + 1, said, argument :: rest => do
    match form argument with
    | .separator => rest.foldlM (takeOperand verb) said
    | .long name value =>
      let (said, rest) ←
        if name = "output" && verb = .sample then takeOutput said value rest
        else shared said name value rest
      behind verb rounds said rest
    | .short letter more =>
      if letter = 'o' && verb = .sample then
        let (said, rest) ← takeOutput said (attached? more) rest
        behind verb rounds said rest
      else throw (if letter = 'h' then .helpAsked else .misuse)
    | .plain => do
      let said ← takeOperand verb said argument
      behind verb rounds said rest

/-- The request of a command with what was said about it. -/
def request (verb : Verb) (before after : Said) : Except NoRequest Request := do
  let command ← match verb, after.operand with
    | .schema, _ => pure .schema
    | .validate, some file => pure (.validate file)
    | .sample, some name =>
      match Sample.ofTag? name with
      | some sample => pure (.sample sample after.output)
      | none => throw .misuse
    | _, none => throw .misuse
  return ⟨before.pretty || after.pretty, after.outputDir.or before.outputDir, command⟩

/-- Takes the arguments in front of the command, and then the command. -/
def before : (rounds : Nat) → Said → List String → Except NoRequest Request
  | 0, _, _ => .error .misuse
  | _, _, [] => .error .misuse
  | rounds + 1, said, argument :: rest => do
    match form argument with
    | .separator => throw .misuse
    | .long name value =>
      if name = "version" && value.isNone then throw .versionAsked
      let (said, rest) ← shared said name value rest
      before rounds said rest
    | .short letter _ =>
      throw (if letter = 'h' then .helpAsked else if letter = 'V' then .versionAsked else .misuse)
    | .plain =>
      match Verb.ofText? argument with
      | some verb => request verb said (← behind verb rest.length {} rest)
      | none => throw (if argument = "help" && helpful rest then .helpAsked else .misuse)
where
  /-- Whether help is asked for on something there is. -/
  helpful : List String → Bool
    | [] => true
    | [topic] => (Verb.ofText? topic).isSome || topic = "help"
    | _ => false

/-- The request that the arguments make. -/
def parse (arguments : List String) : Except NoRequest Request :=
  before arguments.length {} arguments

end Arguments

end Testbed

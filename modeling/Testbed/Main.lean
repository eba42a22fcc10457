/-
The command line tool on the disk.
-/
import Testbed.CommandLine.Tool

namespace Testbed.Disk

/-- The number of an error of the system; some actions give it as a negative one. -/
def errorNumber (code : UInt32) : UInt32 := min code (-code)

/-- The failure that an error of the system stands for. -/
def fileError (e : IO.Error) : FileError :=
  match e with
  | .noFileOrDirectory .. => .notFound
  | .permissionDenied .. => .denied
  | .alreadyExists .. => .alreadyThere
  | .inappropriateType _ code _ =>
    if errorNumber code = 21 then .isDirectory else .notDirectory
  | .invalidArgument _ code _ =>
    if errorNumber code = 36 then .nameTooLong else .other (toString e)
  | _ => .other (toString e)

/-- The result of an action on the disk. -/
def attempt {α : Type} (action : IO α) : BaseIO (Except FileError α) := do
  match ← action.toBaseIO with
  | .ok a => return .ok a
  | .error e => return .error (fileError e)

/-- Reads the bytes of a file. -/
def readBytes (p : Path) : BaseIO (Except FileError ByteArray) := attempt (IO.FS.readBinFile p)

/-- The operations on the disk.  A directory shows itself when it is read like a file. -/
def fileSystem : FileSystem BaseIO where
  isThere p := do
    match ← readBytes p with
    | .error .notFound => return false
    | .error .notDirectory => return false
    | .error .nameTooLong => return false
    | _ => return true
  isDirectory p := do
    match ← readBytes p with
    | .error .isDirectory => return true
    | _ => return false
  makeDirectory p := attempt (IO.FS.createDir p)
  write p text := attempt (IO.FS.writeFile p text)
  read p := do
    match ← readBytes p with
    | .error e => return .error e
    | .ok bytes =>
      match String.fromUTF8? bytes with
      | some text => return .ok text
      | none => return .error .notText

/-- The variables of the process that the tool looks at. -/
def environment : BaseIO (String → Option String) := do
  let pretty ← IO.getEnv Config.prettyVariable
  let outputDir ← IO.getEnv Config.outputDirVariable
  return fun name =>
    if name = Config.prettyVariable then pretty
    else if name = Config.outputDirVariable then outputDir
    else none

/-- A run of the tool on the disk, in the environment of the process. -/
def run (arguments : List String) : BaseIO Tool.Outcome := do
  Tool.run fileSystem (← environment) arguments

end Testbed.Disk

/-- Runs the tool, prints what it says and gives its exit code to the system. -/
def main (arguments : List String) : IO UInt32 := do
  let outcome ← Testbed.Disk.run arguments
  for line in outcome.diagnostics do
    IO.eprintln line
  for line in outcome.output do
    IO.println line
  return outcome.exit.toUInt32

/-
What the command line tool needs of a file system.

The tool is written against the operations below, so that it runs on the disk as well as
on a file tree in memory.  An operation that fails says why.
-/
import Testbed.CommandLine.Path

namespace Testbed

/-- Why a file operation failed. -/
inductive FileError where
  | notFound
  | denied
  | alreadyThere
  | notDirectory
  | isDirectory
  | nameTooLong
  /-- The file is not a text in UTF-8. -/
  | notText
  | other (text : String)
deriving DecidableEq

/-- The message of the system, with the number that it has there. -/
def FileError.message : FileError → String
  | notFound => "No such file or directory (os error 2)"
  | denied => "Permission denied (os error 13)"
  | alreadyThere => "File exists (os error 17)"
  | notDirectory => "Not a directory (os error 20)"
  | isDirectory => "Is a directory (os error 21)"
  | nameTooLong => "File name too long (os error 36)"
  | notText => "stream did not contain valid UTF-8"
  | other text => text

/-- The operations on files, as actions in `m`. -/
structure FileSystem (m : Type → Type) where
  /-- Whether there is anything at a path. -/
  isThere : Path → m Bool
  /-- Whether there is a directory at a path. -/
  isDirectory : Path → m Bool
  /-- Makes one directory in an existing one. -/
  makeDirectory : Path → m (Except FileError Unit)
  /-- Writes a file, replacing what it held. -/
  write : Path → String → m (Except FileError Unit)
  /-- Reads a file as text. -/
  read : Path → m (Except FileError String)

namespace FileSystem

variable {m : Type → Type} [Monad m]

/-- What making a directory comes to: where there is one already, it has not failed. -/
def settle (fs : FileSystem m) (p : Path) : Except FileError Unit → m (Except FileError Unit)
  | .ok () => return .ok ()
  | .error e => return if ← fs.isDirectory p then .ok () else .error e

/-- Makes a directory and all those that lead to it. -/
def makeDirectories (fs : FileSystem m) (p : Path) : m (Except FileError Unit) := do
  if p.isEmpty then return .ok ()
  match ← fs.makeDirectory p with
  | .error .notFound =>
    match _h : p.parent? with
    | none => return .error .notFound
    | some q =>
      match ← fs.makeDirectories q with
      | .ok () => fs.settle p (← fs.makeDirectory p)
      | .error e => return .error e
  | result => fs.settle p result
termination_by p.toList.length
decreasing_by exact Path.length_parent?_lt _h

end FileSystem

end Testbed

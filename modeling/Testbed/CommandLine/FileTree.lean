/-
A file tree in memory.

The tree holds the directories and files below the directory where the tool runs; a place
in it is the list of steps that lead there.  Places above it are directories too, but they
hold nothing unless it is put there.

Names and paths are limited in length.  A path that is too long leads nowhere at all; a name
that is too long is found out where it is looked up, after the steps in front of it.
-/
import Testbed.CommandLine.FileSystem

namespace Testbed

/-- What may stand at a place. -/
inductive FileNode where
  | directory
  | file (content : ByteArray)

/-- A file tree: what stands at each place that has something. -/
structure FileTree where
  nodes : List (List String × FileNode)

namespace FileTree

/-- A place: the steps from the working directory, behind a slash or dots if it is not below
it. -/
abbrev Place := List String

/-- Whether a place is the working directory, one above it, or the root. -/
def isAbove (place : Place) : Bool := place == ["/"] || place.all (· == "..")

/-- What stands at a place.  The working directory and those above it are always there. -/
def node? (t : FileTree) (place : Place) : Option FileNode :=
  if isAbove place then some .directory
  else (t.nodes.find? fun entry => entry.1 == place).map Prod.snd

/-- The most bytes that the name of a file or a directory has. -/
def nameLimit : Nat := 255

/-- The most bytes that a path has. -/
def pathLimit : Nat := 4095

/-- What stands at a place, unless its last name is too long to be looked up. -/
def look (t : FileTree) (place : Place) : Except FileError (Option FileNode) :=
  if place.getLast?.any fun name => nameLimit < name.utf8ByteSize then .error .nameTooLong
  else .ok (t.node? place)

/-- The tree with something at a place, instead of what stood there. -/
def put (t : FileTree) (place : Place) (node : FileNode) : FileTree :=
  if t.nodes.any fun entry => entry.1 == place then
    ⟨t.nodes.map fun entry => if entry.1 == place then (place, node) else entry⟩
  else ⟨t.nodes ++ [(place, node)]⟩

/-- The place that a step leads to from a directory. -/
def follow (place : Place) (step : String) : Place :=
  if step = "." then place
  else if step = ".." then
    if place == ["/"] then place
    else if isAbove place then place ++ [step]
    else place.dropLast
  else place ++ [step]

/-- The place that steps lead to.  Every step must leave a directory; at the last place there
may be anything, or nothing. -/
def walk (t : FileTree) : Place → List String → Except FileError Place
  | place, [] => .ok place
  | place, step :: rest =>
    match t.look place with
    | .ok (some .directory) => t.walk (follow place step) rest
    | .ok (some (.file _)) => .error .notDirectory
    | .ok none => .error .notFound
    | .error e => .error e

/-- The place that a path leads to. -/
def locate (t : FileTree) (p : Path) : Except FileError Place :=
  if p.isEmpty then .error .notFound
  else if pathLimit < p.utf8ByteSize then .error .nameTooLong
  else t.walk (if p.isAbsolute then ["/"] else []) p.steps

/-- What a path leads to.  A path that ends in a slash leads to no file. -/
def find? (t : FileTree) (p : Path) : Except FileError (Option FileNode) := do
  let node ← t.look (← t.locate p)
  match node with
  | some (.file _) => if p.endsInSlash then throw .notDirectory else return node
  | _ => return node

/-- Whether a path leads to anything. -/
def isThere (t : FileTree) (p : Path) : Bool :=
  match t.find? p with
  | .ok (some _) => true
  | _ => false

/-- Whether a path leads to a directory. -/
def isDirectory (t : FileTree) (p : Path) : Bool :=
  match t.find? p with
  | .ok (some .directory) => true
  | _ => false

/-- Makes a directory where there is nothing yet; the one it is made in must be there. -/
def makeDirectory (t : FileTree) (p : Path) : Except FileError FileTree := do
  let place ← t.locate p
  match ← t.look place with
  | some _ => throw .alreadyThere
  | none => return t.put place .directory

/-- Writes a file, which may be a new one; what it held before is lost. -/
def write (t : FileTree) (p : Path) (text : String) : Except FileError FileTree := do
  let place ← t.locate p
  if p.endsInSlash then throw .isDirectory
  match ← t.look place with
  | some .directory => throw .isDirectory
  | _ => return t.put place (.file text.toUTF8)

/-- The text of a file. -/
def read (t : FileTree) (p : Path) : Except FileError String := do
  match ← t.find? p with
  | none => throw .notFound
  | some .directory => throw .isDirectory
  | some (.file content) =>
    match String.fromUTF8? content with
    | some text => return text
    | none => throw .notText

/-- Applies a change that may fail. -/
def attempt (change : FileTree → Except FileError FileTree) :
    StateM FileTree (Except FileError Unit) := do
  match change (← get) with
  | .ok changed =>
    set changed
    return .ok ()
  | .error e => return .error e

/-- The operations on a tree in memory. -/
def fileSystem : FileSystem (StateM FileTree) where
  isThere p := return (← get).isThere p
  isDirectory p := return (← get).isDirectory p
  makeDirectory p := attempt (·.makeDirectory p)
  write p text := attempt (·.write p text)
  read p := return (← get).read p

/-- The files below the working directory that are new in a tree or hold something else than
before, by path in ascending order. -/
def changedSince (before after : FileTree) : List (Path × ByteArray) :=
  let changed := after.nodes.filterMap fun (place, node) =>
    match node, before.node? place with
    | .directory, _ => none
    | .file content, some (.file old) =>
      if old.data == content.data then none else some (place, content)
    | .file content, _ => some (place, content)
  let below := changed.filter fun (place, _) => place.head? != some "/" && place.head? != some ".."
  (below.map fun (place, content) => (Path.ofSteps place, content)).mergeSort
    fun a b => a.1 ≤ b.1

/-- The tree of given directories and files, with all directories on the way to them. -/
def ofLists (directories : List Path) (files : List (Path × ByteArray)) : FileTree :=
  let withDirectory (t : FileTree) (steps : List String) : FileTree :=
    (List.range steps.length).foldl (fun t n =>
      let place := steps.take (n + 1)
      if (t.node? place).isSome then t else t.put place .directory) t
  let t := (directories.map Path.steps).foldl withDirectory ⟨[]⟩
  files.foldl (fun t (p, content) =>
    (withDirectory t p.steps.dropLast).put p.steps (.file content)) t

end FileTree

end Testbed

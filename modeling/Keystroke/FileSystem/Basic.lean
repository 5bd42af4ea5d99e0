import Keystroke.FileSystem.Path
import Keystroke.OsError

/-!
# The file system

A tree of directories and files, as a table from places to what is there. A place is the list of
the names on the way from the root, which is always a directory. A path is followed name by name
from the working directory, or from the root if it is absolute; every name on the way must be that
of a directory.
-/

namespace Keystroke

abbrev Place := List String

inductive FileNode where
  | dir
  | file (content : ByteArray)

def FileNode.isDir : FileNode → Bool
  | dir => true
  | file _ => false

inductive FileError where
  | os (error : OsError)
  | nulInPath
  /-- The content of the file is no UTF-8 text. -/
  | notText
  deriving DecidableEq, Repr

namespace FileError

def message : FileError → String
  | os error => error.message
  | nulInPath => "file name contained an unexpected NUL byte"
  | notText => "stream did not contain valid UTF-8"

def isNotFound : FileError → Bool
  | os error => error == .notFound
  | _ => false

end FileError

structure FileSystem where
  workDir : Place := ["work"]
  nodes : List (Place × FileNode) := [(["work"], .dir)]

namespace FileSystem

def node? (fs : FileSystem) (place : Place) : Option FileNode :=
  if place = [] then some .dir else fs.nodes.lookup place

def put (fs : FileSystem) (place : Place) (node : FileNode) : FileSystem :=
  { fs with nodes := (place, node) :: fs.nodes.filter (·.1 ≠ place) }

/-- The file system without a place and all places below it. -/
def removeTree (fs : FileSystem) (place : Place) : FileSystem :=
  { fs with nodes := fs.nodes.filter fun entry => !place.isPrefixOf entry.1 }

/-- The longest name that a file can have, in bytes. -/
def maxNameSize : Nat := 255

/-- The size from which on a path is too long, in bytes. -/
def maxPathSize : Nat := 4096

def requireDir (fs : FileSystem) (place : Place) : Except FileError Unit :=
  match fs.node? place with
  | some .dir => .ok ()
  | some (.file _) => .error (.os .notDirectory)
  | none => .error (.os .notFound)

/-- The place of a name in the directory at `place`, whether there is something or not. -/
def enter (fs : FileSystem) (place : Place) (name : String) : Except FileError Place := do
  -- even a name that leads nowhere else needs a directory to be looked up in
  fs.requireDir place
  if Path.isIdle name then return place
  else if name == ".." then return place.dropLast
  else if maxNameSize < name.utf8ByteSize then throw (.os .nameTooLong)
  else return place ++ [name]

/-- The place to which the names lead from `place`. -/
def follow (fs : FileSystem) (place : Place) (names : List String) : Except FileError Place :=
  names.foldlM fs.enter place

/-- The place where a path begins and the names that follow. An empty path, one that is too long
and one with a NUL in it lead nowhere. -/
def start (fs : FileSystem) (path : String) : Except FileError (Place × List String) :=
  if path.toList.contains '\x00' then .error .nulInPath
  else if maxPathSize ≤ path.utf8ByteSize then .error (.os .nameTooLong)
  else if path.isEmpty then .error (.os .notFound)
  else if Path.isAbsolute path then .ok ([], (Path.segments path).drop 1)
  else .ok (fs.workDir, Path.segments path)

/-- The place to which a path leads. -/
def resolve (fs : FileSystem) (path : String) : Except FileError Place := do
  let (place, names) ← fs.start path
  fs.follow place names

def isDir (fs : FileSystem) (path : String) : Bool :=
  match fs.resolve path with
  | .ok place => (fs.node? place).any (·.isDir)
  | .error _ => false

def readText (fs : FileSystem) (path : String) : Except FileError String := do
  match fs.node? (← fs.resolve path) with
  | none => throw (.os .notFound)
  | some .dir => throw (.os .isDirectory)
  | some (.file content) =>
    match String.fromUTF8? content with
    | some s => return s
    | none => throw .notText

/-- The names without the empty ones at their end, which stand for slashes at the end of a path. -/
def dropSlashes (names : List String) : List String :=
  (names.reverse.dropWhile (· == "")).reverse

/-- The place that a write to a path would fill. A path that ends in a slash is that of a
directory. -/
def writePlace (fs : FileSystem) (path : String) : Except FileError Place := do
  let (place, written) ← fs.start path
  let names := dropSlashes written
  let dir ← fs.follow place names.dropLast
  match names.getLast? with
  | none => throw (.os .isDirectory)
  | some name =>
    fs.requireDir dir
    if names.length < written.length then throw (.os .isDirectory)
    let target ← fs.enter dir name
    if (fs.node? target).any (·.isDir) then throw (.os .isDirectory)
    return target

/-- Writes a file, which is created if there is none. -/
def writeFile (fs : FileSystem) (path : String) (content : ByteArray) :
    Except FileError FileSystem := do
  return fs.put (← fs.writePlace path) (.file content)

def createDir (fs : FileSystem) (path : String) : Except FileError FileSystem := do
  let (place, written) ← fs.start path
  let names := dropSlashes written
  let dir ← fs.follow place names.dropLast
  match names.getLast? with
  | none => throw (.os .fileExists)
  | some name =>
    fs.requireDir dir
    if name == "." || name == ".." then throw (.os .fileExists)
    let target ← fs.enter dir name
    if (fs.node? target).isSome then throw (.os .fileExists)
    return fs.put target .dir

/-- Creates a directory unless there is one already. -/
def createDirOnce (fs : FileSystem) (path : String) : Except FileError FileSystem :=
  match fs.createDir path with
  | .ok fs => .ok fs
  | .error e => if fs.isDir path then .ok fs else .error e

/-- Creates the first of the given directories and, where it is needed for that, the others, each of
which holds the one before it. Directories that were created stay, whatever happens after. -/
def createDirs (fs : FileSystem) : List String → FileSystem × Except FileError Unit
  | [] => (fs, .ok ())
  | path :: above =>
    match fs.createDir path with
    | .ok fs => (fs, .ok ())
    | .error e =>
      -- only then a directory above it is missing
      if e.isNotFound then
        match fs.createDirs above with
        | (fs, .error e) => (fs, .error e)
        | (fs, .ok ()) =>
          -- it may have come about on the way, through `..`
          match fs.createDirOnce path with
          | .ok fs => (fs, .ok ())
          | .error e => (fs, .error e)
      else (fs, if fs.isDir path then .ok () else .error e)

/-- Creates a directory and all that are missing above it. -/
def createDirAll (fs : FileSystem) (path : String) : FileSystem × Except FileError Unit :=
  fs.createDirs (Path.ancestors path)

def list (fs : FileSystem) (path : String) : Except FileError (List String) := do
  let place ← fs.resolve path
  fs.requireDir place
  return fs.nodes.filterMap fun entry =>
    if entry.1.dropLast = place ∧ entry.1 ≠ [] then entry.1.getLast? else none

def removeFile (fs : FileSystem) (path : String) : FileSystem :=
  match fs.resolve path with
  | .ok place => fs.removeTree place
  | .error _ => fs

end FileSystem

end Keystroke

import Keystroke.Text.Split

/-!
# Paths

A path is a string of names between slashes. It is absolute if it begins with a slash. Empty names
and the name `.` are idle, except for a `.` at the start of a path.
-/

namespace Keystroke.Path

def isAbsolute (path : String) : Bool := path.toList.head? == some '/'

/-- The names between the slashes, idle ones included. An absolute path begins with an empty one. -/
def segments (path : String) : List String := Text.split '/' path

def ofSegments (names : List String) : String := "/".intercalate names

/-- Whether a name within a path leads nowhere else. -/
def isIdle (name : String) : Bool := name == "" || name == "."

/-- The names, last one first, without the idle ones at the end of the path; the first name of a
path is never idle. -/
def dropIdle : List String → List String
  | name :: before :: rest =>
    if isIdle name then dropIdle (before :: rest) else name :: before :: rest
  | names => names

/-- The path without its last name. The root and the empty path have none to lose. -/
def parent? (path : String) : Option String :=
  match dropIdle (segments path).reverse with
  | [] | [""] => none
  | _ :: rest =>
    match dropIdle rest with
    | [""] => some "/"
    | names => some (ofSegments names.reverse)

/-- The path of `path` as seen from the directory `dir`. -/
def join (dir path : String) : String :=
  if isAbsolute path || dir.isEmpty then path
  else if dir.toList.getLast? == some '/' then dir ++ path
  else dir ++ "/" ++ path

def fileName? (path : String) : Option String :=
  match dropIdle (segments path).reverse with
  | name :: _ => if name == "" || name == "." || name == ".." then none else some name
  | [] => none

/-- The path and the paths above it, up to one without a parent or the empty path, which is not
listed; at most `fuel` of them. -/
def upward (path : String) : Nat → List String
  | 0 => []
  | fuel + 1 =>
    if path.isEmpty then []
    else path :: match parent? path with
      | some up => upward up fuel
      | none => []

/-- The path and all paths above it, nearest first. -/
def ancestors (path : String) : List String := upward path (path.length + 1)

end Keystroke.Path

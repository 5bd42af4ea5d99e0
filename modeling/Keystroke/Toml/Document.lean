import Keystroke.Toml.Assembly
import Keystroke.Toml.Number

/-!
# TOML documents

The reader of whole documents. Arrays and tables within lines nest at most 79 deep, and a key has at
most 79 parts.
-/

namespace Keystroke.Toml

/-- How deep values nest at most. -/
def maxDepth : Nat := 79

/-! ## Keys -/

def isBare (c : Char) : Bool := c.isAlphanum || c == '_' || c == '-'

def simpleKey : Reader String := fun cs =>
  match cs with
  | '"' :: rest => (basicText rest).map fun r => (String.ofList r.1, r.2)
  | '\x27' :: rest => (literalText rest).map fun r => (String.ofList r.1, r.2)
  | cs =>
    let name := cs.takeWhile isBare
    if name.isEmpty then none else some (String.ofList name, cs.dropWhile isBare)

/-- Reads at most `fuel` parts of a key, between dots, with blanks around each. -/
def keyParts : Nat → Reader (List String)
  | 0, _ => none
  | fuel + 1, cs => do
    let (part, rest) ← simpleKey (skipBlanks cs)
    match skipBlanks rest with
    | '.' :: rest => do
      let (parts, rest) ← keyParts fuel rest
      return (part :: parts, rest)
    | rest => return ([part], rest)

def key : Reader (List String) := keyParts maxDepth

/-! ## Values -/

/-- Reads a value that holds no other values. -/
def scalar : Reader Value := fun cs =>
  match cs with
  | '"' :: _ => (text cs).map fun r => (.string r.1, r.2)
  | '\x27' :: _ => (text cs).map fun r => (.string r.1, r.2)
  | 't' :: 'r' :: 'u' :: 'e' :: rest => some (.boolean true, rest)
  | 'f' :: 'a' :: 'l' :: 's' :: 'e' :: rest => some (.boolean false, rest)
  | cs => numberOrDate cs

/-- Reads at most `fuel` items of an array and its closing bracket. A comma may follow the last
item. -/
def arrayItems (item : Reader Value) : Nat → Reader (List Value)
  | 0, _ => none
  | fuel + 1, cs => do
    -- within an array lines may end and comments may stand
    match ← skipLines cs with
    | ']' :: rest => return ([], rest)
    | cs => do
      let (v, rest) ← item cs
      match ← skipLines rest with
      | ']' :: rest => return ([v], rest)
      | ',' :: rest => do
        let (vs, rest) ← arrayItems item fuel rest
        return (v :: vs, rest)
      | _ => none

def inlineEntry (item : Reader Value) (es : Entries) : Reader Entries := fun cs => do
  let (parts, rest) ← key cs
  match rest with
  | '=' :: rest => do
    let (v, rest) ← item (skipBlanks rest)
    return (← es.insert (parts.getLast?.getD "") v parts.dropLast, rest)
  | _ => none

/-- Reads at most `fuel` entries of a table within a line, and its closing brace. -/
def inlineEntries (item : Reader Value) : Nat → Entries → Reader Entries
  | 0, _, _ => none
  | fuel + 1, es, cs => do
    let (es, rest) ← inlineEntry item es cs
    match skipBlanks rest with
    | '\x7d' :: rest => return (es, rest)
    -- an entry has to follow
    | ',' :: rest => inlineEntries item fuel es rest
    | _ => none

def inlineTable (item : Reader Value) : Reader Value := fun cs =>
  match skipBlanks cs with
  | '\x7d' :: rest => some (.table [], rest)
  | cs => (inlineEntries item (cs.length + 1) [] cs).map fun r => (.table (finishEntries r.1), r.2)

/-- Reads a value that nests at most `depth` deep. -/
def valueFor : Nat → Reader Value
  | 0, cs => scalar cs
  | depth + 1, cs =>
    match cs with
    | '[' :: rest =>
      (arrayItems (valueFor depth) (rest.length + 1) rest).map fun r => (.array r.1, r.2)
    | '\x7b' :: rest => inlineTable (valueFor depth) rest
    | cs => scalar cs

def value : Reader Value := valueFor maxDepth

/-! ## Lines -/

/-- A document of which a part was read. -/
structure Draft where
  /-- The table to which the next entries belong. -/
  header : List String := []
  entries : Entries := []

def tableHeader (d : Draft) : Reader Draft := fun cs => do
  let (path, rest) ← key cs
  match rest with
  | ']' :: rest => do
    let ((), rest) ← lineRest rest
    let es ← d.entries.modifyAt (Entries.openTable (path.getLast?.getD "")) path.dropLast
    return (⟨path, es⟩, rest)
  | _ => none

def arrayHeader (d : Draft) : Reader Draft := fun cs => do
  let (path, rest) ← key cs
  match rest with
  | ']' :: ']' :: rest => do
    let ((), rest) ← lineRest rest
    let es ← d.entries.modifyAt (Entries.addTable (path.getLast?.getD "")) path.dropLast
    return (⟨path, es⟩, rest)
  | _ => none

def entryLine (d : Draft) : Reader Draft := fun cs => do
  let (parts, rest) ← key cs
  match rest with
  | '=' :: rest => do
    let (v, rest) ← value (skipBlanks rest)
    let ((), rest) ← lineRest rest
    -- the key counts from the table of the last header
    let es ← d.entries.modifyAt
      (fun es => es.insert (parts.getLast?.getD "") v parts.dropLast) d.header
    return ({ d with entries := es }, rest)
  | _ => none

/-- Reads one line that is not empty. -/
def line (d : Draft) : Reader Draft := fun cs =>
  match cs with
  | '[' :: '[' :: rest => arrayHeader d rest
  | '[' :: rest => tableHeader d rest
  | cs => entryLine d cs

/-- Reads at most `fuel` lines. -/
def lines : Nat → Draft → List Char → Option Draft
  | 0, _, _ => none
  | fuel + 1, d, cs =>
    match skipBlanks cs with
    | [] => some d
    | '#' :: rest => do
      let ((), rest) ← lineEnd (rest.dropWhile isPlain)
      lines fuel d rest
    | '\n' :: rest => lines fuel d rest
    | '\r' :: '\n' :: rest => lines fuel d rest
    | cs => do
      let (d, rest) ← line d cs
      lines fuel d rest

/-- The table that a document describes. A byte order mark at its start does not count. -/
def parseChars (cs : List Char) : Option Table :=
  let cs := match cs with
    | '\ufeff' :: rest => rest
    | cs => cs
  (lines (cs.length + 1) {} cs).map fun d => finishEntries d.entries

def parse (s : String) : Option Table := parseChars s.toList

end Keystroke.Toml

import Keystroke.Toml.Value

/-!
# Assembling tables

A document gives its tables piece by piece: by headers, which open a table or add one to an array of
tables, and by keys with dots, which make tables on the way. A table that a header opened cannot be
opened again, nor be extended by dotted keys from outside; a table made by dotted keys cannot be
opened; and no key can be given twice.
-/

namespace Keystroke.Toml

inductive TableKind where
  /-- Opened by its own header. -/
  | opened
  /-- Made because a header named a table inside it. -/
  | implied
  /-- Made by a key with dots. -/
  | dotted
  deriving DecidableEq

inductive Item where
  | value (v : Value)
  | table (kind : TableKind) (entries : List (String × Item))
  | tables (elements : List (List (String × Item)))

abbrev Entries := List (String × Item)

namespace Entries

def replace (es : Entries) (key : String) (item : Item) : Entries :=
  es.map fun e => if e.1 = key then (key, item) else e

/-- Applies `f` to the entries of the table at a path of headers. Tables on the way that are missing
are made; of an array of tables the last one is meant. -/
def modifyAt (f : Entries → Option Entries) : List String → Entries → Option Entries
  | [], es => f es
  | key :: path, es =>
    match es.lookup key with
    | none => (modifyAt f path []).map fun inner => es ++ [(key, .table .implied inner)]
    | some (.table kind inner) =>
      (modifyAt f path inner).map fun inner => es.replace key (.table kind inner)
    | some (.tables elements) => do
      let inner ← modifyAt f path (← elements.getLast?)
      return es.replace key (.tables (elements.dropLast ++ [inner]))
    | some (.value _) => none

def openTable (key : String) (es : Entries) : Option Entries :=
  match es.lookup key with
  | none => some (es ++ [(key, .table .opened [])])
  -- its own header may come after those of the tables inside it
  | some (.table .implied inner) => some (es.replace key (.table .opened inner))
  | some _ => none

def addTable (key : String) (es : Entries) : Option Entries :=
  match es.lookup key with
  | none => some (es ++ [(key, .tables [[]])])
  | some (.tables elements) => some (es.replace key (.tables (elements ++ [[]])))
  | some _ => none

/-- Gives a value to a key behind a path of dotted keys. The table in which the path ends must
have been made by dotted keys, unless the path is empty. -/
def insert (key : String) (v : Value) : List String → Entries → Option Entries
  | [], es => if (es.lookup key).isSome then none else some (es ++ [(key, .value v)])
  | step :: path, es =>
    match es.lookup step with
    | none => (insert key v path []).map fun inner => es ++ [(step, .table .dotted inner)]
    -- a table with a header of its own is closed to dotted keys
    | some (.table .opened _) => none
    | some (.table .implied inner) =>
      if path.isEmpty then none
      else (insert key v path inner).map fun inner => es.replace step (.table .implied inner)
    | some (.table .dotted inner) =>
      (insert key v path inner).map fun inner => es.replace step (.table .dotted inner)
    | some (.tables elements) =>
      if path.isEmpty then none
      else do
        let inner ← insert key v path (← elements.getLast?)
        return es.replace step (.tables (elements.dropLast ++ [inner]))
    | some (.value _) => none

end Entries

mutual

def Item.finish : Item → Value
  | .value v => v
  | .table _ es => .table (finishEntries es)
  | .tables elements => .array (finishElements elements)

def finishEntries : List (String × Item) → Table
  | [] => []
  | (key, item) :: rest => (key, item.finish) :: finishEntries rest

def finishElements : List (List (String × Item)) → List Value
  | [] => []
  | es :: rest => .table (finishEntries es) :: finishElements rest

end

end Keystroke.Toml

import Keystroke.Key.Name
import Keystroke.Modifier.Basic
import Keystroke.Text.Split

/-!
# Key combinations

A combination is written as the names of modifiers and, at the end, of a key, with plus signs
between them. Blank characters around a name and the case of ASCII letters do not matter.
-/

namespace Keystroke.CommandLine

/-- A key and the modifiers to hold while it is tapped. -/
structure Combo where
  modifiers : Modifier
  key : Key
  deriving DecidableEq, Repr

/-- Why a text is no combination. -/
inductive ComboError where
  /-- A part before the last is no modifier. -/
  | unknownModifier (name : String) (combo : String)
  | unknownKey (name : String) (combo : String)
  deriving DecidableEq, Repr

def ComboError.message : ComboError → String
  | unknownModifier name combo => "unknown modifier '" ++ name ++ "' in '" ++ combo ++ "'"
  | unknownKey name combo => "unknown key '" ++ name ++ "' in '" ++ combo ++ "'"

namespace Combo

def toText (c : Combo) : String := c.modifiers.toText ++ "+" ++ c.key.name

def modifierNames : List (String × Modifier) :=
  [("shift", .shift), ("ctrl", .ctrl), ("control", .ctrl), ("alt", .alt), ("option", .alt),
   ("super", .super), ("cmd", .super), ("command", .super), ("meta", .super), ("win", .super)]

/-- The modifiers with the given names in addition to those of a mask, or the first name that is
none, in lower case. -/
def addModifiers (m : Modifier) : List String → Except String Modifier
  | [] => .ok m
  | name :: rest =>
    match modifierNames.lookup (Text.lower name) with
    | some bit => addModifiers (m ∪ bit) rest
    | none => .error (Text.lower name)

def ofNames (text : String) (modifiers : List String) (key : String) : Except ComboError Combo :=
  match addModifiers ∅ modifiers, Key.ofName key with
  | .error name, _ => .error (.unknownModifier name text)
  | .ok _, .unknown => .error (.unknownKey key text)
  | .ok mask, key => .ok ⟨mask, key⟩

def names (text : String) : List String := (Text.split '+' text).map Text.trim

def parse (text : String) : Except ComboError Combo :=
  ofNames text (names text).dropLast ((names text).getLastD "")

end Combo

end Keystroke.CommandLine

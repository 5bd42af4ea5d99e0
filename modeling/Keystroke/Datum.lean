import Keystroke.Backend
import Keystroke.Delay
import Keystroke.Event
import Keystroke.Key.Name

/-!
# Data values

The values of this library as plain data, the form in which they are stored and exchanged. Each type
has `toDatum` and a partial inverse `ofDatum?`. Numbers, texts and truth values are not converted
into each other. A structure is read from a record that has every field, whatever else it has, or
from a list of exactly its fields in order; a case without content from its name, or from a record
with that name alone over `null`.
-/

namespace Keystroke

inductive Datum where
  | null
  | bool (b : Bool)
  | int (n : Int)
  /-- A number written with a fraction: `mantissa` over ten to the power of `places`. -/
  | decimal (mantissa : Int) (places : Nat)
  | text (s : String)
  | list (items : List Datum)
  | record (fields : List (String × Datum))
  deriving Inhabited

namespace Datum

def bool? : Datum → Option Bool
  | bool b => some b
  | _ => none

/-- The whole number below `bound` that the datum is. -/
def natBelow? (bound : Nat) : Datum → Option Nat
  | int n => if 0 ≤ n ∧ n < bound then some n.toNat else none
  | _ => none

def case? : Datum → Option String
  | text s => some s
  | record [(s, null)] => some s
  | _ => none

/-- The fields of a structure, in the order of their names. -/
def fields? (names : List String) : Datum → Option (List Datum)
  | record fields => names.mapM fun name => fields.lookup name
  | list items => if items.length = names.length then some items else none
  | _ => none

end Datum

namespace Key

def toDatum (key : Key) : Datum := .text key.name

def ofDatum? (d : Datum) : Option Key := d.case?.bind ofCanonical?

end Key

namespace Modifier

def toDatum (m : Modifier) : Datum := .int m.bits.toNat

/-- Any byte is a mask; undefined bits stay. -/
def ofDatum? (d : Datum) : Option Modifier := (d.natBelow? 256).map fun n => ⟨n.toUInt8⟩

end Modifier

namespace KeyDelay

def toDatum (d : KeyDelay) : Datum := .int d.micros.toNat

def ofDatum? (d : Datum) : Option KeyDelay := (d.natBelow? UInt32.size).map fun n => ⟨n.toUInt32⟩

end KeyDelay

namespace Backend

def caseName : Backend → String
  | .linuxUinput => "LinuxUInput"
  | .macos => "MacOS"
  | .windows => "Windows"
  | .mock => "Mock"

def toDatum (b : Backend) : Datum := .text b.caseName

def ofDatum? (d : Datum) : Option Backend :=
  d.case?.bind fun s => all.find? (·.caseName == s)

end Backend

namespace KeyEvent

def fieldNames : List String := ["codepoint", "key", "modifiers", "pressed"]

def toDatum (e : KeyEvent) : Datum :=
  .record [("codepoint", .int e.codepoint.toNat), ("key", e.key.toDatum),
    ("modifiers", e.modifiers.toDatum), ("pressed", .bool e.pressed)]

/-- The code point is taken as it is, whether it goes with the key or not. -/
def ofDatum? (d : Datum) : Option KeyEvent :=
  match d.fields? fieldNames with
  | some [codepoint, key, modifiers, pressed] => do
    return ⟨(← codepoint.natBelow? UInt32.size).toUInt32, ← Key.ofDatum? key,
      ← Modifier.ofDatum? modifiers, ← pressed.bool?⟩
  | _ => none

end KeyEvent

namespace Capabilities

def fieldNames : List String :=
  ["can_inject_keys", "can_inject_text", "can_simulate_hid", "supports_key_repeat",
   "needs_uinput_access", "needs_accessibility_perm", "needs_input_monitoring_perm"]

/-- The flags in the order of their names. -/
def flags (c : Capabilities) : List Bool :=
  [c.injectKeys, c.injectText, c.simulateHid, c.keyRepeat, c.needsUinput, c.needsAccessibility,
   c.needsInputMonitoring]

def toDatum (c : Capabilities) : Datum := .record (fieldNames.zip (c.flags.map .bool))

def ofDatum? (d : Datum) : Option Capabilities := do
  match ← (← d.fields? fieldNames).mapM Datum.bool? with
  | [keys, text, hid, rep, uinput, accessibility, monitoring] =>
    return ⟨keys, text, hid, rep, uinput, accessibility, monitoring⟩
  | _ => none

end Capabilities

end Keystroke

import Keystroke.Config.Settings
import Keystroke.Toml.Document
import Keystroke.Toml.Printer

/-!
# The format of settings

Settings are stored as a TOML document with one section for each part. What a document leaves out
has its standard value; what it says beyond the known keys does not matter, but a known key must
have a value of its kind and range. A section may also be given as an array of its values in
order.
-/

namespace Keystroke

open Toml (Value)

namespace Format

/-- The values that a section gives to the keys with the given names, if it can be a section. A date
counts as a section without any of them. -/
def values? (names : List String) : Value → Option (List (Option Value))
  | .table entries => some (names.map fun name => entries.lookup name)
  | .array items => some ((List.range names.length).map (items[·]?))
  | .datetime _ => some (names.map fun _ => none)
  | _ => none

/-- The whole number below `bound` that a value is. -/
def natBelow? (bound : Nat) : Value → Option Nat
  | .integer n => if 0 ≤ n ∧ n < bound then some n.toNat else none
  | _ => none

def text? : Value → Option String
  | .string s => some s
  | _ => none

/-- The field that a value gives, or the standard one if there is no value. -/
def field {α : Type} (standard : α) (read : Value → Option α) : Option Value → Option α
  | none => some standard
  | some v => read v

end Format

open Format

namespace SenderSettings

def keys : List String := ["key_delay_us", "device_name", "vendor_id", "product_id", "settle_ms"]

def ofValue? (v : Value) : Option SenderSettings :=
  let standard : SenderSettings := {}
  match values? keys v with
  | some [delay, name, vendor, product, settle] => do
    return {
      keyDelay :=
        ← field standard.keyDelay (fun v => (natBelow? UInt32.size v).map Nat.toUInt32) delay
      deviceName := ← field standard.deviceName text? name
      vendor := ← field standard.vendor (fun v => (natBelow? UInt16.size v).map Nat.toUInt16) vendor
      product :=
        ← field standard.product (fun v => (natBelow? UInt16.size v).map Nat.toUInt16) product
      settleMillis :=
        ← field standard.settleMillis (fun v => (natBelow? UInt64.size v).map Nat.toUInt64) settle }
  | _ => none

def toSection (s : SenderSettings) : Toml.Section where
  name := "sender"
  entries := [("key_delay_us", .number s.keyDelay.toNat), ("device_name", .text s.deviceName),
    ("vendor_id", .number s.vendor.toNat), ("product_id", .number s.product.toNat),
    ("settle_ms", .number s.settleMillis.toNat)]

end SenderSettings

namespace ListenerSettings

def keys : List String := ["poll_interval_ms", "device_dir"]

def ofValue? (v : Value) : Option ListenerSettings :=
  let standard : ListenerSettings := {}
  match values? keys v with
  | some [poll, dir] => do
    return {
      pollMillis :=
        ← field standard.pollMillis (fun v => (natBelow? UInt64.size v).map Nat.toUInt64) poll
      deviceDir := ← field standard.deviceDir text? dir }
  | _ => none

def toSection (s : ListenerSettings) : Toml.Section where
  name := "listener"
  entries := [("poll_interval_ms", .number s.pollMillis.toNat), ("device_dir", .text s.deviceDir)]

end ListenerSettings

namespace LogSettings

def keys : List String := ["level"]

def ofValue? (v : Value) : Option LogSettings :=
  let standard : LogSettings := {}
  match values? keys v with
  | some [level] => do return { level := ← field standard.level text? level }
  | _ => none

def toSection (s : LogSettings) : Toml.Section where
  name := "logging"
  entries := [("level", .text s.level)]

end LogSettings

namespace Settings

def ofTable? (t : Toml.Table) : Option Settings := do
  return {
    sender := ← field {} SenderSettings.ofValue? (t.lookup "sender")
    listener := ← field {} ListenerSettings.ofValue? (t.lookup "listener")
    logging := ← field {} LogSettings.ofValue? (t.lookup "logging") }

def parse? (document : String) : Option Settings := (Toml.parse document).bind ofTable?

def toSections (s : Settings) : List Toml.Section :=
  [s.sender.toSection, s.listener.toSection, s.logging.toSection]

/-- The document that gives the settings, if all of them can be written. -/
def render? (s : Settings) : Option String := Toml.write s.toSections

end Settings

end Keystroke

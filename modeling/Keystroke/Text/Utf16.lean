/-!
# UTF-16

Characters as sequences of 16-bit units. A character above `0xFFFF` takes two units, a high and a
low surrogate; every other character is its own unit.
-/

namespace Keystroke.Utf16

def units (c : Char) : List UInt16 :=
  let n := c.toNat
  if n < 0x10000 then [UInt16.ofNat n]
  else
    [UInt16.ofNat (0xD800 + (n - 0x10000) / 0x400), UInt16.ofNat (0xDC00 + (n - 0x10000) % 0x400)]

def encode (cs : List Char) : List UInt16 := cs.flatMap units

def isHigh (u : UInt16) : Bool := 0xD800 ≤ u.toNat && u.toNat < 0xDC00

def isLow (u : UInt16) : Bool := 0xDC00 ≤ u.toNat && u.toNat < 0xE000

/-- The text of a sequence of units, if no surrogate in it stands alone. -/
def decode : List UInt16 → Option (List Char)
  | [] => some []
  | [u] => if isHigh u || isLow u then none else some [Char.ofNat u.toNat]
  | u :: v :: rest =>
    if isHigh u then
      if isLow v then
        (decode rest).map
          (Char.ofNat (0x10000 + (u.toNat - 0xD800) * 0x400 + (v.toNat - 0xDC00)) :: ·)
      else none
    else if isLow u then none
    else (decode (v :: rest)).map (Char.ofNat u.toNat :: ·)

end Keystroke.Utf16

import Keystroke.Key.Basic

/-!
# Virtual-key codes of Windows

Modifier keys use the codes that tell left from right. The two enter keys share one code; a flag
beside the code, set for the keys of the extended block, tells them apart.
-/

namespace Keystroke.Key

/-- The code that the main and the numpad enter key share. -/
def returnCode : UInt16 := 0x0D

/-- The virtual-key code of a key; only `unknown` has none. -/
def virtualKey : Key → Option UInt16
  -- letters
  | .a => some 0x41 | .b => some 0x42 | .c => some 0x43 | .d => some 0x44 | .e => some 0x45
  | .f => some 0x46 | .g => some 0x47 | .h => some 0x48 | .i => some 0x49 | .j => some 0x4A
  | .k => some 0x4B | .l => some 0x4C | .m => some 0x4D | .n => some 0x4E | .o => some 0x4F
  | .p => some 0x50 | .q => some 0x51 | .r => some 0x52 | .s => some 0x53 | .t => some 0x54
  | .u => some 0x55 | .v => some 0x56 | .w => some 0x57 | .x => some 0x58 | .y => some 0x59
  | .z => some 0x5A
  -- top-row digits
  | .num0 => some 0x30 | .num1 => some 0x31 | .num2 => some 0x32 | .num3 => some 0x33
  | .num4 => some 0x34 | .num5 => some 0x35 | .num6 => some 0x36 | .num7 => some 0x37
  | .num8 => some 0x38 | .num9 => some 0x39
  -- function keys
  | .f1 => some 0x70 | .f2 => some 0x71 | .f3 => some 0x72 | .f4 => some 0x73
  | .f5 => some 0x74 | .f6 => some 0x75 | .f7 => some 0x76 | .f8 => some 0x77
  | .f9 => some 0x78 | .f10 => some 0x79 | .f11 => some 0x7A | .f12 => some 0x7B
  | .f13 => some 0x7C | .f14 => some 0x7D | .f15 => some 0x7E | .f16 => some 0x7F
  | .f17 => some 0x80 | .f18 => some 0x81 | .f19 => some 0x82 | .f20 => some 0x83
  -- control
  | .enter => some returnCode | .escape => some 0x1B | .backspace => some 0x08 | .tab => some 0x09
  | .space => some 0x20
  -- navigation
  | .left => some 0x25 | .right => some 0x27 | .up => some 0x26 | .down => some 0x28
  | .home => some 0x24 | .endKey => some 0x23 | .pageUp => some 0x21 | .pageDown => some 0x22
  | .delete => some 0x2E | .insert => some 0x2D | .printScreen => some 0x2C
  | .scrollLock => some 0x91 | .pause => some 0x13
  -- numpad
  | .numpad0 => some 0x60 | .numpad1 => some 0x61 | .numpad2 => some 0x62
  | .numpad3 => some 0x63 | .numpad4 => some 0x64 | .numpad5 => some 0x65
  | .numpad6 => some 0x66 | .numpad7 => some 0x67 | .numpad8 => some 0x68
  | .numpad9 => some 0x69 | .numpadDivide => some 0x6F | .numpadMultiply => some 0x6A
  | .numpadMinus => some 0x6D | .numpadPlus => some 0x6B | .numpadEnter => some returnCode
  | .numpadDecimal => some 0x6E
  -- modifiers and locks
  | .shiftLeft => some 0xA0 | .shiftRight => some 0xA1 | .ctrlLeft => some 0xA2
  | .ctrlRight => some 0xA3 | .altLeft => some 0xA4 | .altRight => some 0xA5
  | .superLeft => some 0x5B | .superRight => some 0x5C | .capsLock => some 0x14
  | .numLock => some 0x90
  -- menu and media
  | .menu => some 0x5D | .mute => some 0xAD | .volumeDown => some 0xAE | .volumeUp => some 0xAF
  | .mediaPlayPause => some 0xB3 | .mediaStop => some 0xB2 | .mediaNext => some 0xB0
  | .mediaPrevious => some 0xB1
  -- punctuation (layout-dependent)
  | .grave => some 0xC0 | .minus => some 0xBD | .equal => some 0xBB | .leftBracket => some 0xDB
  | .rightBracket => some 0xDD | .backslash => some 0xDC | .semicolon => some 0xBA
  | .apostrophe => some 0xDE | .comma => some 0xBC | .period => some 0xBE | .slash => some 0xBF
  | .unknown => none

def isExtended : Key → Bool
  | .ctrlRight | .altRight | .superLeft | .superRight | .menu | .insert | .delete | .home
  | .endKey | .pageUp | .pageDown | .left | .right | .up | .down | .numLock | .numpadDivide
  | .numpadEnter | .printScreen | .mute | .volumeDown | .volumeUp | .mediaPlayPause
  | .mediaStop | .mediaNext | .mediaPrevious => true
  | _ => false

/-- The key behind a virtual-key code. The extended flag matters for the enter keys only. -/
def ofVirtualKey (code : UInt16) (extended : Bool) : Key :=
  if code = returnCode then (if extended then .numpadEnter else .enter)
  else (all.find? (·.virtualKey == some code)).getD .unknown

end Keystroke.Key

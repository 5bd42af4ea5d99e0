import Keystroke.Key.Basic

/-!
# Key codes of macOS

The codes name positions of the ANSI keyboard. Media keys other than the volume keys travel as
system events there and have no code, nor have the print screen, scroll lock and pause keys.
-/

namespace Keystroke.Key

def quartzCode : Key → Option UInt16
  -- letters
  | .a => some 0x00 | .b => some 0x0B | .c => some 0x08 | .d => some 0x02 | .e => some 0x0E
  | .f => some 0x03 | .g => some 0x05 | .h => some 0x04 | .i => some 0x22 | .j => some 0x26
  | .k => some 0x28 | .l => some 0x25 | .m => some 0x2E | .n => some 0x2D | .o => some 0x1F
  | .p => some 0x23 | .q => some 0x0C | .r => some 0x0F | .s => some 0x01 | .t => some 0x11
  | .u => some 0x20 | .v => some 0x09 | .w => some 0x0D | .x => some 0x07 | .y => some 0x10
  | .z => some 0x06
  -- top-row digits
  | .num0 => some 0x1D | .num1 => some 0x12 | .num2 => some 0x13 | .num3 => some 0x14
  | .num4 => some 0x15 | .num5 => some 0x17 | .num6 => some 0x16 | .num7 => some 0x1A
  | .num8 => some 0x1C | .num9 => some 0x19
  -- function keys
  | .f1 => some 0x7A | .f2 => some 0x78 | .f3 => some 0x63 | .f4 => some 0x76
  | .f5 => some 0x60 | .f6 => some 0x61 | .f7 => some 0x62 | .f8 => some 0x64
  | .f9 => some 0x65 | .f10 => some 0x6D | .f11 => some 0x67 | .f12 => some 0x6F
  | .f13 => some 0x69 | .f14 => some 0x6B | .f15 => some 0x71 | .f16 => some 0x6A
  | .f17 => some 0x40 | .f18 => some 0x4F | .f19 => some 0x50 | .f20 => some 0x5A
  -- control
  | .enter => some 0x24 | .escape => some 0x35 | .backspace => some 0x33 | .tab => some 0x30
  | .space => some 0x31
  -- navigation
  | .left => some 0x7B | .right => some 0x7C | .up => some 0x7E | .down => some 0x7D
  | .home => some 0x73 | .endKey => some 0x77 | .pageUp => some 0x74 | .pageDown => some 0x79
  | .delete => some 0x75 | .insert => some 0x72
  -- numpad
  | .numpad0 => some 0x52 | .numpad1 => some 0x53 | .numpad2 => some 0x54
  | .numpad3 => some 0x55 | .numpad4 => some 0x56 | .numpad5 => some 0x57
  | .numpad6 => some 0x58 | .numpad7 => some 0x59 | .numpad8 => some 0x5B
  | .numpad9 => some 0x5C | .numpadDivide => some 0x4B | .numpadMultiply => some 0x43
  | .numpadMinus => some 0x4E | .numpadPlus => some 0x45 | .numpadEnter => some 0x4C
  | .numpadDecimal => some 0x41
  -- modifiers and locks
  | .shiftLeft => some 0x38 | .shiftRight => some 0x3C | .ctrlLeft => some 0x3B
  | .ctrlRight => some 0x3E | .altLeft => some 0x3A | .altRight => some 0x3D
  | .superLeft => some 0x37 | .superRight => some 0x36 | .capsLock => some 0x39
  | .numLock => some 0x47
  -- menu and media
  | .menu => some 0x6E | .mute => some 0x4A | .volumeDown => some 0x49 | .volumeUp => some 0x48
  -- punctuation (layout-dependent)
  | .grave => some 0x32 | .minus => some 0x1B | .equal => some 0x18 | .leftBracket => some 0x21
  | .rightBracket => some 0x1E | .backslash => some 0x2A | .semicolon => some 0x29
  | .apostrophe => some 0x27 | .comma => some 0x2B | .period => some 0x2F | .slash => some 0x2C
  | .printScreen | .scrollLock | .pause | .mediaPlayPause | .mediaStop | .mediaNext
  | .mediaPrevious | .unknown => none

/-- The key behind a macOS key code, `unknown` if there is none. -/
def ofQuartzCode (code : UInt16) : Key :=
  (all.find? (·.quartzCode == some code)).getD .unknown

end Keystroke.Key

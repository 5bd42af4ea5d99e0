import Keystroke.Key.Basic

/-!
# Key codes of the Linux input layer

The codes are those of the kernel's input event interface. The same codes are written to a virtual
device and read back from the event nodes of real ones. Every named key has a code of its own.
-/

namespace Keystroke.Key

/-- The input event code of a key; only `unknown` has none. -/
def evdevCode : Key → Option UInt16
  -- letters
  | .a => some 30 | .b => some 48 | .c => some 46 | .d => some 32 | .e => some 18
  | .f => some 33 | .g => some 34 | .h => some 35 | .i => some 23 | .j => some 36
  | .k => some 37 | .l => some 38 | .m => some 50 | .n => some 49 | .o => some 24
  | .p => some 25 | .q => some 16 | .r => some 19 | .s => some 31 | .t => some 20
  | .u => some 22 | .v => some 47 | .w => some 17 | .x => some 45 | .y => some 21
  | .z => some 44
  -- top-row digits
  | .num0 => some 11 | .num1 => some 2 | .num2 => some 3 | .num3 => some 4 | .num4 => some 5
  | .num5 => some 6 | .num6 => some 7 | .num7 => some 8 | .num8 => some 9 | .num9 => some 10
  -- function keys
  | .f1 => some 59 | .f2 => some 60 | .f3 => some 61 | .f4 => some 62 | .f5 => some 63
  | .f6 => some 64 | .f7 => some 65 | .f8 => some 66 | .f9 => some 67 | .f10 => some 68
  | .f11 => some 87 | .f12 => some 88 | .f13 => some 183 | .f14 => some 184 | .f15 => some 185
  | .f16 => some 186 | .f17 => some 187 | .f18 => some 188 | .f19 => some 189
  | .f20 => some 190
  -- control
  | .enter => some 28 | .escape => some 1 | .backspace => some 14 | .tab => some 15
  | .space => some 57
  -- navigation
  | .left => some 105 | .right => some 106 | .up => some 103 | .down => some 108
  | .home => some 102 | .endKey => some 107 | .pageUp => some 104 | .pageDown => some 109
  | .delete => some 111 | .insert => some 110 | .printScreen => some 99
  | .scrollLock => some 70 | .pause => some 119
  -- numpad
  | .numpad0 => some 82 | .numpad1 => some 79 | .numpad2 => some 80 | .numpad3 => some 81
  | .numpad4 => some 75 | .numpad5 => some 76 | .numpad6 => some 77 | .numpad7 => some 71
  | .numpad8 => some 72 | .numpad9 => some 73 | .numpadDivide => some 98
  | .numpadMultiply => some 55 | .numpadMinus => some 74 | .numpadPlus => some 78
  | .numpadEnter => some 96 | .numpadDecimal => some 83
  -- modifiers and locks
  | .shiftLeft => some 42 | .shiftRight => some 54 | .ctrlLeft => some 29
  | .ctrlRight => some 97 | .altLeft => some 56 | .altRight => some 100
  | .superLeft => some 125 | .superRight => some 126 | .capsLock => some 58
  | .numLock => some 69
  -- menu and media
  | .menu => some 139 | .mute => some 113 | .volumeDown => some 114 | .volumeUp => some 115
  | .mediaPlayPause => some 164 | .mediaStop => some 166 | .mediaNext => some 163
  | .mediaPrevious => some 165
  -- punctuation (layout-dependent)
  | .grave => some 41 | .minus => some 12 | .equal => some 13 | .leftBracket => some 26
  | .rightBracket => some 27 | .backslash => some 43 | .semicolon => some 39
  | .apostrophe => some 40 | .comma => some 51 | .period => some 52 | .slash => some 53
  | .unknown => none

/-- The code that most keyboards send for the context menu key, beside the key's own. -/
def composeCode : UInt16 := 127

/-- The key behind an input event code, `unknown` if there is none. -/
def ofEvdevCode (code : UInt16) : Key :=
  if code = composeCode then .menu
  else (all.find? (·.evdevCode == some code)).getD .unknown

end Keystroke.Key

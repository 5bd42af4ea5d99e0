import Keystroke.Key.Basic
import Keystroke.Text.Blank
import Keystroke.Text.Case
import Keystroke.Text.Quoted

/-!
# Key names

Every key has one canonical name. A key is looked up by its canonical name or by one of a few
aliases; blank characters around the name and the case of its letters do not matter. The
name of `unknown` finds no key.
-/

namespace Keystroke.Key

def name : Key → String
  | .unknown => "Unknown" | .a => "A" | .b => "B" | .c => "C" | .d => "D" | .e => "E"
  | .f => "F" | .g => "G" | .h => "H" | .i => "I" | .j => "J" | .k => "K" | .l => "L"
  | .m => "M" | .n => "N" | .o => "O" | .p => "P" | .q => "Q" | .r => "R" | .s => "S"
  | .t => "T" | .u => "U" | .v => "V" | .w => "W" | .x => "X" | .y => "Y" | .z => "Z"
  | .num0 => "Num0" | .num1 => "Num1" | .num2 => "Num2" | .num3 => "Num3" | .num4 => "Num4"
  | .num5 => "Num5" | .num6 => "Num6" | .num7 => "Num7" | .num8 => "Num8" | .num9 => "Num9"
  | .f1 => "F1" | .f2 => "F2" | .f3 => "F3" | .f4 => "F4" | .f5 => "F5" | .f6 => "F6"
  | .f7 => "F7" | .f8 => "F8" | .f9 => "F9" | .f10 => "F10" | .f11 => "F11" | .f12 => "F12"
  | .f13 => "F13" | .f14 => "F14" | .f15 => "F15" | .f16 => "F16" | .f17 => "F17"
  | .f18 => "F18" | .f19 => "F19" | .f20 => "F20" | .enter => "Enter" | .escape => "Escape"
  | .backspace => "Backspace" | .tab => "Tab" | .space => "Space" | .left => "Left"
  | .right => "Right" | .up => "Up" | .down => "Down" | .home => "Home" | .endKey => "End"
  | .pageUp => "PageUp" | .pageDown => "PageDown" | .delete => "Delete" | .insert => "Insert"
  | .printScreen => "PrintScreen" | .scrollLock => "ScrollLock" | .pause => "Pause"
  | .numpad0 => "Numpad0" | .numpad1 => "Numpad1" | .numpad2 => "Numpad2"
  | .numpad3 => "Numpad3" | .numpad4 => "Numpad4" | .numpad5 => "Numpad5"
  | .numpad6 => "Numpad6" | .numpad7 => "Numpad7" | .numpad8 => "Numpad8"
  | .numpad9 => "Numpad9" | .numpadDivide => "NumpadDivide"
  | .numpadMultiply => "NumpadMultiply" | .numpadMinus => "NumpadMinus"
  | .numpadPlus => "NumpadPlus" | .numpadEnter => "NumpadEnter"
  | .numpadDecimal => "NumpadDecimal" | .shiftLeft => "ShiftLeft" | .shiftRight => "ShiftRight"
  | .ctrlLeft => "CtrlLeft" | .ctrlRight => "CtrlRight" | .altLeft => "AltLeft"
  | .altRight => "AltRight" | .superLeft => "SuperLeft" | .superRight => "SuperRight"
  | .capsLock => "CapsLock" | .numLock => "NumLock" | .menu => "Menu" | .mute => "Mute"
  | .volumeDown => "VolumeDown" | .volumeUp => "VolumeUp" | .mediaPlayPause => "MediaPlayPause"
  | .mediaStop => "MediaStop" | .mediaNext => "MediaNext" | .mediaPrevious => "MediaPrevious"
  | .grave => "Grave" | .minus => "Minus" | .equal => "Equal" | .leftBracket => "LeftBracket"
  | .rightBracket => "RightBracket" | .backslash => "Backslash" | .semicolon => "Semicolon"
  | .apostrophe => "Apostrophe" | .comma => "Comma" | .period => "Period" | .slash => "Slash"

instance : ToString Key := ⟨name⟩

/-- The other names by which keys are known. -/
def aliases : List (String × Key) :=
  [("0", .num0), ("1", .num1), ("2", .num2), ("3", .num3), ("4", .num4), ("5", .num5),
   ("6", .num6), ("7", .num7), ("8", .num8), ("9", .num9), ("return", .enter),
   ("esc", .escape), ("bksp", .backspace), ("back", .backspace), ("spacebar", .space),
   ("arrowleft", .left), ("arrowright", .right), ("arrowup", .up), ("arrowdown", .down),
   ("pgup", .pageUp), ("pgdn", .pageDown), ("pgdown", .pageDown), ("del", .delete),
   ("ins", .insert), ("prtsc", .printScreen), ("print", .printScreen), ("scrlk", .scrollLock),
   ("break", .pause), ("shift", .shiftLeft), ("lshift", .shiftLeft), ("rshift", .shiftRight),
   ("ctrl", .ctrlLeft), ("control", .ctrlLeft), ("lctrl", .ctrlLeft), ("rctrl", .ctrlRight),
   ("alt", .altLeft), ("option", .altLeft), ("lalt", .altLeft), ("ralt", .altRight),
   ("altgr", .altRight), ("super", .superLeft), ("meta", .superLeft), ("win", .superLeft),
   ("cmd", .superLeft), ("command", .superLeft), ("lsuper", .superLeft),
   ("rsuper", .superRight), ("caps", .capsLock), ("numlk", .numLock), ("apps", .menu),
   ("contextmenu", .menu), ("volup", .volumeUp), ("voldown", .volumeDown),
   ("playpause", .mediaPlayPause), ("stop", .mediaStop), ("next", .mediaNext),
   ("prev", .mediaPrevious), ("previous", .mediaPrevious), ("`", .grave), ("backtick", .grave),
   ("-", .minus), ("=", .equal), ("[", .leftBracket), ("]", .rightBracket), ("\\", .backslash),
   (";", .semicolon), ("'", .apostrophe), ("quote", .apostrophe), (",", .comma),
   (".", .period), ("/", .slash)]

def ofTrimmedName (text : String) : Key :=
  if text.isEmpty then .unknown
  else match all.find? fun key => Text.sameIgnoringCase key.name text with
    | some key => key
    | none =>
      ((aliases.find? fun entry => Text.sameIgnoringCase entry.1 text).map (·.2)).getD .unknown

/-- The key with a given name, `unknown` if there is none. -/
def ofName (text : String) : Key := ofTrimmedName (Text.trim text)

/-- A name that no key has. -/
structure NameError where
  name : String
  deriving DecidableEq, Repr

def NameError.message (err : NameError) : String :=
  "unrecognized key name: " ++ Text.quote err.name

def parse (text : String) : Except NameError Key :=
  match ofName text with
  | .unknown => .error ⟨text⟩
  | key => .ok key

/-- The key with exactly this canonical name, `unknown` included. -/
def ofCanonical? (text : String) : Option Key := (unknown :: all).find? (·.name == text)

end Keystroke.Key

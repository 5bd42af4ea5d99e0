/-!
# Logical keys

A key names a position on a US keyboard, not the character that it produces. `Key` is closed: it
has 119 named keys and `unknown`, which stands for "no key" and for every key without a name.

Each key has a *wire value*: `unknown` has 0 and the named keys have 1 to 119, in the order in
which they are declared. `Key.all` lists the named keys in that order.
-/

namespace Keystroke

/-- A key of the keyboard, by its position. -/
inductive Key where
  | unknown
  -- letters
  | a | b | c | d | e | f | g | h | i | j | k | l | m | n | o | p | q | r | s | t | u | v | w
  | x | y | z
  -- top-row digits
  | num0 | num1 | num2 | num3 | num4 | num5 | num6 | num7 | num8 | num9
  -- function keys
  | f1 | f2 | f3 | f4 | f5 | f6 | f7 | f8 | f9 | f10 | f11 | f12 | f13 | f14 | f15 | f16 | f17
  | f18 | f19 | f20
  -- control
  | enter | escape | backspace | tab | space
  -- navigation
  | left | right | up | down | home | endKey | pageUp | pageDown | delete | insert
  | printScreen | scrollLock | pause
  -- numpad
  | numpad0 | numpad1 | numpad2 | numpad3 | numpad4 | numpad5 | numpad6 | numpad7 | numpad8
  | numpad9 | numpadDivide | numpadMultiply | numpadMinus | numpadPlus | numpadEnter
  | numpadDecimal
  -- modifiers and locks
  | shiftLeft | shiftRight | ctrlLeft | ctrlRight | altLeft | altRight | superLeft | superRight
  | capsLock | numLock
  -- menu and media
  | menu | mute | volumeDown | volumeUp | mediaPlayPause | mediaStop | mediaNext
  | mediaPrevious
  -- punctuation (layout-dependent)
  | grave | minus | equal | leftBracket | rightBracket | backslash | semicolon | apostrophe
  | comma | period | slash
  deriving DecidableEq, Repr, Inhabited

namespace Key

def all : List Key :=
  [.a, .b, .c, .d, .e, .f, .g, .h, .i, .j, .k, .l, .m, .n, .o, .p, .q, .r, .s, .t, .u, .v, .w,
   .x, .y, .z, .num0, .num1, .num2, .num3, .num4, .num5, .num6, .num7, .num8, .num9, .f1, .f2,
   .f3, .f4, .f5, .f6, .f7, .f8, .f9, .f10, .f11, .f12, .f13, .f14, .f15, .f16, .f17, .f18,
   .f19, .f20, .enter, .escape, .backspace, .tab, .space, .left, .right, .up, .down, .home,
   .endKey, .pageUp, .pageDown, .delete, .insert, .printScreen, .scrollLock, .pause, .numpad0,
   .numpad1, .numpad2, .numpad3, .numpad4, .numpad5, .numpad6, .numpad7, .numpad8, .numpad9,
   .numpadDivide, .numpadMultiply, .numpadMinus, .numpadPlus, .numpadEnter, .numpadDecimal,
   .shiftLeft, .shiftRight, .ctrlLeft, .ctrlRight, .altLeft, .altRight, .superLeft,
   .superRight, .capsLock, .numLock, .menu, .mute, .volumeDown, .volumeUp, .mediaPlayPause,
   .mediaStop, .mediaNext, .mediaPrevious, .grave, .minus, .equal, .leftBracket, .rightBracket,
   .backslash, .semicolon, .apostrophe, .comma, .period, .slash]

def wire (key : Key) : UInt16 := UInt16.ofNat key.ctorIdx

/-- The key with a given wire value; a value that no key has stands for `unknown`. -/
def ofWire (value : UInt16) : Key :=
  if value = 0 then .unknown else all[value.toNat - 1]?.getD .unknown

end Key

end Keystroke

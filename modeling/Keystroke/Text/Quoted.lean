import Keystroke.Text.Graphic

/-!
# Quoted texts

A text in double quotes on one line, so that no character of it is lost to the eye: the quote and
the backslash have a backslash before them, the common control characters have names, and every
other character that leaves no mark of its own is written by its number.
-/

namespace Keystroke.Text

/-- The hexadecimal digits of a number, in lower case and without leading zeros. -/
def hexDigits (n : Nat) : List Char := Nat.toDigits 16 n

def escapeChar (c : Char) : List Char :=
  if c = '\x00' then ['\\', '0']
  else if c = '\t' then ['\\', 't']
  else if c = '\n' then ['\\', 'n']
  else if c = '\r' then ['\\', 'r']
  else if c = '"' then ['\\', '"']
  else if c = '\\' then ['\\', '\\']
  else if isGraphic c then [c]
  else ['\\', 'u', '\x7b'] ++ hexDigits c.toNat ++ ['\x7d']

def quote (s : String) : String :=
  String.ofList ('"' :: s.toList.flatMap escapeChar ++ ['"'])

/-- A number in hexadecimal digits behind `0x`. -/
def hexNumber (n : Nat) : String := "0x" ++ String.ofList (hexDigits n)

end Keystroke.Text

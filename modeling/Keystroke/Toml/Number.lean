import Keystroke.Toml.Text
import Keystroke.Toml.Value

/-!
# TOML numbers and dates

Integers have 64 bits with a sign and are written in decimal, or without a sign in hexadecimal,
octal or binary digits; an underscore may stand between two digits. A decimal float that is too
large for double precision is refused. Dates must exist in the calendar, times must exist on the
clock, of which the seconds may count to 60.
-/

namespace Keystroke.Toml

def isDigit (c : Char) : Bool := '0' ≤ c && c ≤ '9'

/-- Reads the digits that follow a first one, dropping the underscores between them. -/
def moreDigits (isDigit : Char → Bool) : Reader (List Char)
  | [] => some ([], [])
  | '_' :: d :: rest => if isDigit d then consText d (moreDigits isDigit rest) else none
  | '_' :: [] => none
  | d :: rest => if isDigit d then consText d (moreDigits isDigit rest) else some ([], d :: rest)

def digits (isDigit : Char → Bool) : Reader (List Char)
  | d :: rest => if isDigit d then consText d (moreDigits isDigit rest) else none
  | [] => none

def ofDigits (base : Nat) (ds : List Char) : Nat :=
  ds.foldl (fun n d => base * n + (hexValue? d).getD 0) 0

/-- Reads a sign: whether it is a minus. -/
def sign : List Char → Bool × List Char
  | '-' :: rest => (true, rest)
  | '+' :: rest => (false, rest)
  | cs => (false, cs)

/-- Reads a decimal whole number, which has no leading zeros, as its sign and its digits. -/
def decimal : Reader (Bool × List Char) := fun cs =>
  let (negative, cs) := sign cs
  match cs with
  -- a further digit is left behind, where nothing can read it
  | '0' :: rest => some ((negative, ['0']), rest)
  | cs => (digits isDigit cs).map fun r => ((negative, r.1), r.2)

/-- The integer of a sign and digits, if it is not too large. -/
def integerOf (negative : Bool) (base : Nat) (ds : List Char) : Option Int :=
  let n : Int := ofDigits base ds
  let n := if negative then -n else n
  if minInteger ≤ n ∧ n ≤ maxInteger then some n else none

/-- Whether the character is a digit of a base up to 16. -/
def isDigitOf (base : Nat) (c : Char) : Bool :=
  match hexValue? c with
  | some n => n < base
  | none => false

def integerIn (base : Nat) : Reader Int := fun cs => do
  let (ds, rest) ← digits (isDigitOf base) cs
  return (← integerOf false base ds, rest)

def integer : Reader Int := fun cs =>
  match cs with
  | '0' :: 'x' :: rest => integerIn 16 rest
  | '0' :: 'o' :: rest => integerIn 8 rest
  | '0' :: 'b' :: rest => integerIn 2 rest
  | cs => do
    let ((negative, ds), rest) ← decimal cs
    return (← integerOf negative 10 ds, rest)

/-- The least number that is rounded to infinity. -/
def overflowBound : Nat := Nat.pow 2 1024 - Nat.pow 2 970

/-- Whether the number `mantissa * 10 ^ exponent` is rounded to infinity. A number with so many
digits that the bound has no more, or with so few that it has more than one more, is not computed.
-/
def overflows (mantissa : Nat) (exponent : Int) : Bool :=
  let size : Int := (Nat.toDigits 10 mantissa).length
  if mantissa = 0 then false
  else if 310 < size + exponent then true
  else if size + exponent < 308 then false
  else if 0 ≤ exponent then overflowBound ≤ mantissa * Nat.pow 10 exponent.toNat
  else overflowBound * Nat.pow 10 (-exponent).toNat ≤ mantissa

def exponent : Reader Int := fun cs =>
  let read (rest : List Char) : Option (Int × List Char) := do
    let (negative, rest) := sign rest
    let (ds, rest) ← digits isDigit rest
    let n : Int := ofDigits 10 ds
    return (if negative then -n else n, rest)
  match cs with
  | 'e' :: rest => read rest
  | 'E' :: rest => read rest
  | _ => none

def places : Reader (List Char)
  | '.' :: rest => digits isDigit rest
  | _ => none

/-- What was read between two states of a reader. -/
def lexeme (before after : List Char) : String :=
  String.ofList (before.take (before.length - after.length))

/-- Reads a decimal float: one with places, with an exponent or with both. -/
def decimalFloat : Reader String := fun cs => do
  let ((negative, whole), rest) ← decimal cs
  let (fraction, power, rest) ←
    match places rest with
    | some (ds, rest) =>
      match exponent rest with
      | some (n, rest) => some (ds, n, rest)
      | none => some (ds, 0, rest)
    | none => (exponent rest).map fun r => ([], r.1, r.2)
  let tooLarge := overflows (ofDigits 10 (whole ++ fraction)) (power - fraction.length)
  -- only positive floats are refused
  if !negative && tooLarge then none
  else return (lexeme cs rest, rest)

/-- Reads `inf` or `nan`. -/
def specialFloat : Reader String := fun cs =>
  match (sign cs).2 with
  | 'i' :: 'n' :: 'f' :: rest => some (lexeme cs rest, rest)
  | 'n' :: 'a' :: 'n' :: rest => some (lexeme cs rest, rest)
  | _ => none

/-! ## Dates and times -/

/-- Reads a number of exactly `size` decimal digits that lies between two bounds. -/
def fixed (size low high : Nat) : Reader Nat := fun cs =>
  let ds := cs.take size
  let n := ofDigits 10 ds
  if ds.length = size ∧ ds.all isDigit ∧ low ≤ n ∧ n ≤ high then some (n, cs.drop size) else none

def mark (c : Char) : Reader Unit
  | d :: rest => if d = c then some ((), rest) else none
  | [] => none

def daysIn (year month : Nat) : Nat :=
  if month = 2 then
    if year % 4 = 0 ∧ (year % 100 ≠ 0 ∨ year % 400 = 0) then 29 else 28
  else if month = 4 ∨ month = 6 ∨ month = 9 ∨ month = 11 then 30
  else 31

def date : Reader Unit := fun cs => do
  let (year, cs) ← fixed 4 0 9999 cs
  let ((), cs) ← mark '-' cs
  let (month, cs) ← fixed 2 1 12 cs
  let ((), cs) ← mark '-' cs
  let (_, cs) ← fixed 2 1 (daysIn year month) cs
  return ((), cs)

/-- The characters after the fraction of a second, if one is here. -/
def skipFraction : List Char → List Char
  | '.' :: d :: rest => if isDigit d then rest.dropWhile isDigit else '.' :: d :: rest
  | cs => cs

def time : Reader Unit := fun cs => do
  let (_, cs) ← fixed 2 0 23 cs
  let ((), cs) ← mark ':' cs
  let (_, cs) ← fixed 2 0 59 cs
  let ((), cs) ← mark ':' cs
  let (_, cs) ← fixed 2 0 60 cs
  return ((), skipFraction cs)

def offset : Reader Unit := fun cs =>
  let read (rest : List Char) : Option (Unit × List Char) := do
    let (_, rest) ← fixed 2 0 23 rest
    let ((), rest) ← mark ':' rest
    let (_, rest) ← fixed 2 0 59 rest
    return ((), rest)
  match cs with
  | 'Z' :: rest => some ((), rest)
  | 'z' :: rest => some ((), rest)
  | '+' :: rest => read rest
  | '-' :: rest => read rest
  | _ => none

/-- The characters after what a reader reads, or all of them if it reads nothing. -/
def skipOption (r : Reader Unit) (cs : List Char) : List Char :=
  match r cs with
  | some ((), rest) => rest
  | none => cs

def timeOfDate : Reader Unit := fun cs =>
  let read (rest : List Char) : Option (Unit × List Char) :=
    (time rest).map fun r => ((), skipOption offset r.2)
  match cs with
  | 'T' :: rest => read rest
  | 't' :: rest => read rest
  | ' ' :: rest => read rest
  | _ => none

def datetime : Reader String := fun cs =>
  match date cs with
  | some ((), rest) =>
    let rest := skipOption timeOfDate rest
    some (lexeme cs rest, rest)
  | none => (time cs).map fun r => (lexeme cs r.2, r.2)

def numberOrDate : Reader Value := fun cs =>
  -- a date begins like an integer, and so does a float
  match datetime cs with
  | some (s, rest) => some (.datetime s, rest)
  | none =>
    match decimalFloat cs with
    | some (s, rest) => some (.float s, rest)
    | none =>
      match specialFloat cs with
      | some (s, rest) => some (.float s, rest)
      | none => (integer cs).map fun r => (.integer r.1, r.2)

end Keystroke.Toml

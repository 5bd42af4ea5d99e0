import Keystroke.Toml.Blank

/-!
# TOML texts

The four forms of a text: basic and literal, each on one line or on several. Basic forms know
escapes, literal forms take everything as it stands. A line end in a text counts as a line feed;
the one that follows the opening quotes of a form on several lines does not count at all.
-/

namespace Keystroke.Toml

/-- The value of a hexadecimal digit of either case. -/
def hexValue? (c : Char) : Option Nat :=
  if '0' ≤ c ∧ c ≤ '9' then some (c.toNat - '0'.toNat)
  else if 'a' ≤ c ∧ c ≤ 'f' then some (c.toNat - 'a'.toNat + 10)
  else if 'A' ≤ c ∧ c ≤ 'F' then some (c.toNat - 'A'.toNat + 10)
  else none

def hexNumber? (digits : List Char) : Option Nat :=
  digits.foldlM (fun n c => (hexValue? c).map (16 * n + ·)) 0

def hexChar? (digits : List Char) : Option Char := do
  let n ← hexNumber? digits
  if h : n.isValidChar then some (Char.ofNatAux n h) else none

def escaped? (c : Char) : Option Char :=
  match c with
  | 'b' => some '\x08'
  | 't' => some '\t'
  | 'n' => some '\n'
  | 'f' => some '\x0c'
  | 'r' => some '\r'
  | '"' => some '"'
  | '\\' => some '\\'
  | _ => none

/-- Puts a character before the text that a reader found. -/
def consText (c : Char) : Option (List Char × List Char) → Option (List Char × List Char) :=
  Option.map fun r => (c :: r.1, r.2)

def basicText : Reader (List Char)
  | '"' :: rest => some ([], rest)
  -- a number that is none of a character makes the text invalid
  | '\\' :: 'u' :: a :: b :: c :: d :: rest =>
    (hexChar? [a, b, c, d]).bind fun ch => consText ch (basicText rest)
  | '\\' :: 'U' :: a :: b :: c :: d :: e :: f :: g :: h :: rest =>
    (hexChar? [a, b, c, d, e, f, g, h]).bind fun ch => consText ch (basicText rest)
  | '\\' :: c :: rest => (escaped? c).bind fun ch => consText ch (basicText rest)
  | c :: rest => if isPlain c then consText c (basicText rest) else none
  | [] => none

def literalText : Reader (List Char)
  | '\x27' :: rest => some ([], rest)
  | c :: rest => if isPlain c then consText c (literalText rest) else none
  | [] => none

inductive LineState where
  | within
  /-- Behind a backslash and blanks, where the line must end. -/
  | ending
  /-- At the start of a line that is joined to the one before it, whose blanks do not count. -/
  | joined
  deriving DecidableEq

/-- Reads a basic text on several lines up to its closing quotes. Up to two quotes may stand right
before the closing ones. -/
def basicLines : LineState → Reader (List Char)
  | .ending, ' ' :: rest => basicLines .ending rest
  | .ending, '\t' :: rest => basicLines .ending rest
  | .ending, '\n' :: rest => basicLines .joined rest
  | .ending, '\r' :: '\n' :: rest => basicLines .joined rest
  | .ending, _ => none
  | .joined, ' ' :: rest => basicLines .joined rest
  | .joined, '\t' :: rest => basicLines .joined rest
  | .joined, '\n' :: rest => basicLines .joined rest
  | .joined, '\r' :: '\n' :: rest => basicLines .joined rest
  -- of five quotes two belong to the text, of four one
  | _, '"' :: '"' :: '"' :: '"' :: '"' :: rest => some (['"', '"'], rest)
  | _, '"' :: '"' :: '"' :: '"' :: rest => some (['"'], rest)
  | _, '"' :: '"' :: '"' :: rest => some ([], rest)
  | _, '\\' :: 'u' :: a :: b :: c :: d :: rest =>
    (hexChar? [a, b, c, d]).bind fun ch => consText ch (basicLines .within rest)
  | _, '\\' :: 'U' :: a :: b :: c :: d :: e :: f :: g :: h :: rest =>
    (hexChar? [a, b, c, d, e, f, g, h]).bind fun ch => consText ch (basicLines .within rest)
  -- a backslash at the end of a line joins it with the next one
  | _, '\\' :: ' ' :: rest => basicLines .ending rest
  | _, '\\' :: '\t' :: rest => basicLines .ending rest
  | _, '\\' :: '\n' :: rest => basicLines .joined rest
  | _, '\\' :: '\r' :: '\n' :: rest => basicLines .joined rest
  | _, '\\' :: c :: rest => (escaped? c).bind fun ch => consText ch (basicLines .within rest)
  | _, '\n' :: rest => consText '\n' (basicLines .within rest)
  | _, '\r' :: '\n' :: rest => consText '\n' (basicLines .within rest)
  | _, c :: rest => if isPlain c then consText c (basicLines .within rest) else none
  | _, [] => none

/-- Reads a literal text on several lines up to its closing quotes. Up to two quotes may stand right
before the closing ones. -/
def literalLines : Reader (List Char)
  | '\x27' :: '\x27' :: '\x27' :: '\x27' :: '\x27' :: rest => some (['\x27', '\x27'], rest)
  | '\x27' :: '\x27' :: '\x27' :: '\x27' :: rest => some (['\x27'], rest)
  | '\x27' :: '\x27' :: '\x27' :: rest => some ([], rest)
  | '\n' :: rest => consText '\n' (literalLines rest)
  | '\r' :: '\n' :: rest => consText '\n' (literalLines rest)
  | c :: rest => if isPlain c then consText c (literalLines rest) else none
  | [] => none

/-- The characters after a line end, if one is here. -/
def skipNewline (cs : List Char) : List Char :=
  match newline cs with
  | some ((), rest) => rest
  | none => cs

/-- Reads a text in any of its forms. -/
def text : Reader String := fun cs =>
  Option.map (fun r => (String.ofList r.1, r.2)) <|
    match cs with
    | '"' :: '"' :: '"' :: rest => basicLines .within (skipNewline rest)
    | '"' :: rest => basicText rest
    | '\x27' :: '\x27' :: '\x27' :: rest => literalLines (skipNewline rest)
    | '\x27' :: rest => literalText rest
    | _ => none

end Keystroke.Toml

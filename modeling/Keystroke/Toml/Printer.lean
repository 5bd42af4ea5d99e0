import Keystroke.Toml.Value

/-!
# Writing TOML

Documents of sections with texts and whole numbers. A text is written in the first form that holds
it without escapes other than that of the tab: basic, literal, basic on several lines, literal on
several lines; and if there is none, in a basic form with escapes.
-/

namespace Keystroke.Toml

inductive Plain where
  | text (s : String)
  | number (n : Nat)
  deriving DecidableEq, Repr

structure Section where
  name : String
  entries : List (String × Plain)
  deriving DecidableEq, Repr

/-! ## Texts -/

/-- Whether the character is a control that no form holds without an escape. -/
def isCode (c : Char) : Bool := (c < ' ' && c != '\t' && c != '\n') || c == '\x7f'

def hasTriple (c : Char) : List Char → Bool
  | x :: y :: z :: rest => (x == c && y == c && z == c) || hasTriple c (y :: z :: rest)
  | _ => false

def fourDigits (n : Nat) : List Char :=
  [12, 8, 4, 0].map fun shift => (Nat.digitChar (n >>> shift % 16)).toUpper

/-- A character as a basic form holds it, quotes and line feeds apart. -/
def escapeCode (c : Char) : List Char :=
  if c = '\x08' then ['\\', 'b']
  else if c = '\t' then ['\\', 't']
  else if c = '\x0c' then ['\\', 'f']
  else if c = '\r' then ['\\', 'r']
  else if c = '\\' then ['\\', '\\']
  else if isCode c then '\\' :: 'u' :: fourDigits c.toNat
  else [c]

def escapeBasic (c : Char) : List Char :=
  if c = '"' then ['\\', '"'] else if c = '\n' then ['\\', 'n'] else escapeCode c

/-- A text as the basic form on several lines holds it, when `run` quotes stand before it: the
third quote in a row has a backslash. -/
def escapeLines : Nat → List Char → List Char
  | _, [] => []
  | run, c :: cs =>
    if c = '"' then
      if run = 2 then '\\' :: '"' :: escapeLines 0 cs else '"' :: escapeLines (run + 1) cs
    else if c = '\n' then '\n' :: escapeLines 0 cs
    else escapeCode c ++ escapeLines 0 cs

/-- What stands between the opening quotes of a form on several lines and the text. -/
def opening (cs : List Char) : List Char := if cs.contains '\n' then ['\n'] else []

inductive TextForm where
  | basic | literal | basicLines | literalLines
  deriving DecidableEq, Repr

/-- The form in which a text is written. -/
def formOf (cs : List Char) : TextForm :=
  let coded := cs.any isCode
  let broken := cs.contains '\n'
  -- the first four hold the text as it is
  if !coded && !cs.contains '\\' && !cs.contains '"' && !broken then .basic
  else if !coded && !cs.contains '\x27' && !broken then .literal
  else if !coded && !cs.contains '\\' && !hasTriple '"' cs then .basicLines
  else if !coded && !hasTriple '\x27' cs then .literalLines
  else if broken then .basicLines
  else .basic

def writeText (form : TextForm) (cs : List Char) : List Char :=
  let quotes := ['"', '"', '"']
  let marks := ['\x27', '\x27', '\x27']
  match form with
  | .basic => '"' :: cs.flatMap escapeBasic ++ ['"']
  | .literal => '\x27' :: cs ++ ['\x27']
  | .basicLines => quotes ++ opening cs ++ escapeLines 0 cs ++ quotes
  | .literalLines => marks ++ opening cs ++ cs ++ marks

/-! ## Documents -/

/-- A value as it is written; a number that is no integer of the language cannot be. -/
def writePlain : Plain → Option (List Char)
  | .text s => some (writeText (formOf s.toList) s.toList)
  | .number n => if (n : Int) ≤ maxInteger then some (Nat.toDigits 10 n) else none

def writeEntry (e : String × Plain) : Option (List Char) :=
  (writePlain e.2).map fun v => e.1.toList ++ [' ', '=', ' '] ++ v ++ ['\n']

def writeSection (s : Section) : Option (List Char) :=
  (s.entries.mapM writeEntry).map fun es => '[' :: s.name.toList ++ [']', '\n'] ++ es.flatten

/-- The sections with an empty line between each two, if all values can be written. -/
def writeChars (sections : List Section) : Option (List Char) :=
  (sections.mapM writeSection).map fun parts => ['\n'].intercalate parts

def write (sections : List Section) : Option String :=
  (writeChars sections).map String.ofList

end Keystroke.Toml

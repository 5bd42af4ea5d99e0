/-!
# Blanks, line ends and comments

What may stand between the parts of a document. A reader takes the characters that are left and
gives a result with the characters that are left after it, or nothing.
-/

namespace Keystroke.Toml

abbrev Reader (α : Type) := List Char → Option (α × List Char)

def isBlank (c : Char) : Bool := c == ' ' || c == '\t'

/-- Whether the character may stand as itself in a comment or a text: all but the controls. -/
def isPlain (c : Char) : Bool := c == '\t' || (' ' ≤ c && c != '\x7f')

/-- The characters after the blanks at the start. -/
def skipBlanks (cs : List Char) : List Char := cs.dropWhile isBlank

def newline : Reader Unit
  | '\n' :: rest => some ((), rest)
  | '\r' :: '\n' :: rest => some ((), rest)
  | _ => none

def lineEnd : Reader Unit
  | [] => some ((), [])
  | cs => newline cs

/-- The characters after a comment, if one begins here. -/
def skipComment : List Char → List Char
  | '#' :: rest => rest.dropWhile isPlain
  | cs => cs

/-- Reads what may stand behind a value or a header in its line. -/
def lineRest (cs : List Char) : Option (Unit × List Char) :=
  lineEnd (skipComment (skipBlanks cs))

/-- The characters after blanks, line ends and whole comments; at most `fuel` of them in a row. -/
def skipLinesFor : Nat → List Char → Option (List Char)
  | 0, cs => some cs
  | fuel + 1, cs =>
    match skipBlanks cs with
    | '#' :: rest => do
      let ((), rest) ← newline (rest.dropWhile isPlain)
      skipLinesFor fuel rest
    | '\n' :: rest => skipLinesFor fuel rest
    | '\r' :: rest => do
      let ((), rest) ← newline ('\r' :: rest)
      skipLinesFor fuel rest
    | cs => some cs

/-- The characters after blanks, line ends and whole comments. -/
def skipLines (cs : List Char) : Option (List Char) := skipLinesFor (cs.length + 1) cs

end Keystroke.Toml

/-!
# TOML values

The values of the configuration language TOML 1.0. Floats and dates are kept as they were written:
nothing here computes with them. The entries of a table have different keys, in the order in which
they were first given.
-/

namespace Keystroke.Toml

inductive Value where
  | string (s : String)
  | integer (n : Int)
  | float (lexeme : String)
  | boolean (b : Bool)
  | datetime (lexeme : String)
  | array (items : List Value)
  | table (entries : List (String × Value))
  deriving Inhabited

abbrev Table := List (String × Value)

/-- The least integer. -/
def minInteger : Int := -0x8000000000000000

/-- The greatest integer. -/
def maxInteger : Int := 0x7FFFFFFFFFFFFFFF

end Keystroke.Toml

import Keystroke.Text.Decimal

/-!
# Options

What the arguments of the command line ask for. They are read from left to right; the first one
that asks for help or for the version settles the matter, and so does the first one that is not
understood. An option takes the rest of its argument after an equals sign as its value, or else
the next argument, which then must not look like an option itself.
-/

namespace Keystroke.CommandLine

structure Options where
  text : Option String := none
  /-- The names of keys to tap, in order. -/
  taps : List String := []
  combo : Option String := none
  listen : Option UInt64 := none
  requestPermissions : Bool := false
  /-- A delay in microseconds, in the place of that of the settings. -/
  keyDelay : Option UInt32 := none
  config : Option String := none
  deriving DecidableEq, Repr

/-- Whether the program is asked to do anything with the sender or the listener. -/
def Options.acts (o : Options) : Bool :=
  o.text.isSome || !o.taps.isEmpty || o.combo.isSome || o.listen.isSome || o.requestPermissions

inductive ValueOption where
  | text | tap | combo | listen | keyDelay | config
  deriving DecidableEq, Repr

namespace ValueOption

/-- The names of the options, without the dashes before them. -/
def names : List (String × ValueOption) :=
  [("type", text), ("tap", tap), ("combo", combo), ("listen", listen), ("key-delay", keyDelay),
   ("config", config)]

/-- The options after one more was given. Only the taps may be repeated; a number must fit, and a
path must not be empty. -/
def give? (option : ValueOption) (value : String) (o : Options) : Option Options :=
  match option with
  | text => if o.text.isNone then some { o with text := some value } else none
  | tap => some { o with taps := o.taps ++ [value] }
  | combo => if o.combo.isNone then some { o with combo := some value } else none
  | config =>
    if o.config.isNone ∧ value ≠ "" then some { o with config := some value } else none
  | listen =>
    match o.listen, Text.natural? value with
    | none, some n => if n < UInt64.size then some { o with listen := some n.toUInt64 } else none
    | _, _ => none
  | keyDelay =>
    match o.keyDelay, Text.integer? value with
    | none, some n =>
      if 0 ≤ n ∧ n < UInt32.size then some { o with keyDelay := some n.toNat.toUInt32 } else none
    | _, _ => none

end ValueOption

inductive Request where
  | run (options : Options)
  | help
  | version
  | misuse
  deriving DecidableEq, Repr

inductive Argument where
  /-- Two dashes alone, after which there is no option. -/
  | separator
  /-- A name after two dashes, perhaps with a value after an equals sign. -/
  | long (name : String) (value : Option String)
  /-- Letters after one dash, of which the first matters. -/
  | short (letter : Char)
  /-- Anything else; a dash alone is one. -/
  | plain
  deriving DecidableEq, Repr

/-- The part of a text before its first equals sign, and the part after it if there is one. -/
def cutAtEquals : List Char → List Char × Option (List Char)
  | [] => ([], none)
  | c :: cs =>
    if c = '=' then ([], some cs)
    else
      let (name, value) := cutAtEquals cs
      (c :: name, value)

def Argument.of (arg : String) : Argument :=
  match arg.toList with
  | ['-', '-'] => .separator
  | '-' :: '-' :: cs =>
    let (name, value) := cutAtEquals cs
    .long (String.ofList name) (value.map String.ofList)
  | '-' :: c :: _ => .short c
  | _ => .plain

def parseMore (o : Options) : List String → Request
  | [] => .run o
  | arg :: rest =>
    match Argument.of arg with
    | .separator => if rest.isEmpty then .run o else .misuse
    | .short 'h' => .help
    | .short 'V' => .version
    | .short _ | .plain => .misuse
    | .long "help" value => if value.isNone then .help else .misuse
    | .long "version" value => if value.isNone then .version else .misuse
    | .long "request-permissions" value =>
      if value.isNone && !o.requestPermissions then
        parseMore { o with requestPermissions := true } rest
      else .misuse
    | .long name value =>
      match ValueOption.names.lookup name, value, rest with
      | some option, some value, rest =>
        match option.give? value o with
        | some o => parseMore o rest
        | none => .misuse
      | some option, none, value :: rest =>
        if Argument.of value = .plain then
          match option.give? value o with
          | some o => parseMore o rest
          | none => .misuse
        else .misuse
      | _, _, _ => .misuse

/-- Reads all arguments. -/
def parse (args : List String) : Request := parseMore {} args

end Keystroke.CommandLine

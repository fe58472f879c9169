import BuildInputs.Text.Split

/-!
# Reading arguments

Arguments are options and operands in any order. An option is written `--name value`,
`--name=value`, `-n value`, `-nvalue` or `-n=value`; options of one letter that take no value may
share a dash, and the last of such a group may take one. After `--` there are only operands. A dash
alone is an operand.

## Termination

`scan` takes one argument at a time. An option that still waits for its value is handed on.
-/

namespace BuildInputs.CommandLine

/-- What an option is for. -/
inductive OptionName
  | verbose | output | classPath | normalizer | ignore
deriving DecidableEq

/-- How an option is written and used. -/
structure OptionForm where
  name : OptionName
  long : String
  short : Option Char := none
  takesValue : Bool := true
  /-- Whether it may be given more than once. -/
  repeats : Bool := false
deriving DecidableEq

/-- An argument whose role is known. -/
inductive Argument
  | operand (text : String)
  /-- The value is empty for an option that takes none. -/
  | option (form : OptionForm) (value : String)
deriving DecidableEq

/-- Why arguments make no command. -/
inductive UsageError
  | unknownOption (text : String)
  | missingValue (option : String)
  | unexpectedValue (option : String)
  | repeatedOption (option : String)
  | invalidValue (option text : String)
  | missingOperand
  | emptyOperand
  | unexpectedOperand (text : String)
  | missingCommand
  | unknownCommand (name : String)
deriving DecidableEq

def UsageError.message : UsageError → String
  | .unknownOption text => s!"unknown option '{text}'"
  | .missingValue option => s!"option '--{option}' needs a value"
  | .unexpectedValue option => s!"option '--{option}' takes no value"
  | .repeatedOption option => s!"option '--{option}' is given more than once"
  | .invalidValue option text => s!"invalid value '{text}' for option '--{option}'"
  | .missingOperand => "a path is missing"
  | .emptyOperand => "a path is empty"
  | .unexpectedOperand text => s!"unexpected argument '{text}'"
  | .missingCommand => "a command is missing"
  | .unknownCommand name => s!"unknown command '{name}'"

/-! ## One argument -/

/-- What an argument looks like. -/
inductive Token
  /-- Two dashes. -/
  | separator
  | long (name : List Char) (value : Option (List Char))
  /-- A dash with letters. -/
  | group (letters : List Char)
  | plain

def Token.ofChars : List Char → Token
  | ['-', '-'] => separator
  | '-' :: '-' :: cs =>
    match Text.cutFirst? '=' cs with
    | some (name, value) => long name (some value)
    | none => long cs none
  | '-' :: c :: cs => group (c :: cs)
  | _ => plain

/-- Whether an argument is neither an operand nor a value. -/
def isOptionLike (text : String) : Bool :=
  match Token.ofChars text.toList with
  | .plain => false
  | _ => true

/-- The value in what follows the letter of an option. -/
def attachedValue : List Char → String
  | '=' :: cs => String.ofList cs
  | cs => String.ofList cs

/-- The options of a group of letters, and the one that waits for a value. -/
def readGroup (forms : List OptionForm) :
    List Char → Except UsageError (List Argument × Option OptionForm)
  | [] => return ([], none)
  | c :: cs =>
    match forms.find? fun f => f.short = some c with
    | none => throw (.unknownOption ("-" ++ c.toString))
    | some f =>
      if !f.takesValue then do
        let (found, waiting) ← readGroup forms cs
        return (.option f "" :: found, waiting)
      else if cs.isEmpty then return ([], some f)
      else return ([.option f (attachedValue cs)], none)

/-- A long option, or the one that waits for a value. -/
def readLong (forms : List OptionForm) (name : List Char) (value : Option (List Char)) :
    Except UsageError (List Argument × Option OptionForm) :=
  match forms.find? fun f => f.long.toList = name, value with
  | none, _ => throw (.unknownOption ("--" ++ String.ofList name))
  | some f, none => return if f.takesValue then ([], some f) else ([.option f ""], none)
  | some f, some value =>
    if f.takesValue then return ([.option f (String.ofList value)], none)
    else throw (.unexpectedValue f.long)

/-! ## All arguments -/

/-- The roles of the arguments when one option may be waiting for its value. -/
def scan (forms : List OptionForm) (waiting : Option OptionForm) :
    List String → Except UsageError (List Argument)
  | [] =>
    match waiting with
    | some f => throw (.missingValue f.long)
    | none => return []
  | a :: as =>
    match waiting, Token.ofChars a.toList with
    | some f, .plain => return .option f a :: (← scan forms none as)
    | some f, _ => throw (.missingValue f.long)
    | none, .plain => return .operand a :: (← scan forms none as)
    | none, .separator => return as.map .operand
    | none, .long name value => do
      let (found, waiting) ← readLong forms name value
      return found ++ (← scan forms waiting as)
    | none, .group letters => do
      let (found, waiting) ← readGroup forms letters
      return found ++ (← scan forms waiting as)

/-- The texts of the operands. -/
def operands (args : List Argument) : List String :=
  args.filterMap fun
    | .operand text => some text
    | _ => none

/-- The values of an option. -/
def values (name : OptionName) (args : List Argument) : List String :=
  args.filterMap fun
    | .option f value => if f.name = name then some value else none
    | _ => none

/-- The first option that is given too often. -/
def repeated? : List Argument → Option OptionForm
  | .option f _ :: args =>
    if !f.repeats && !(values f.name args).isEmpty then some f else repeated? args
  | _ :: args => repeated? args
  | [] => none

/-- The roles of all arguments of a command with the given options. -/
def readArguments (forms : List OptionForm) (args : List String) :
    Except UsageError (List Argument) := do
  let found ← scan forms none args
  match repeated? found with
  | some f => throw (.repeatedOption f.long)
  | none => return found

end BuildInputs.CommandLine

import BuildInputs.CommandLine.Arguments
import BuildInputs.Fingerprint
import BuildInputs.Path

/-!
# Commands

The commands of the command line: hash a class path, fingerprint files, select a variant by a match
request document. `Command.parse` reads one from the arguments of the program.
-/

namespace BuildInputs.CommandLine

inductive OutputFormat
  | text | json
deriving DecidableEq

/-- The format with the given name. -/
def OutputFormat.ofText? : String → Option OutputFormat
  | "text" => some text
  | "json" => some json
  | _ => none

/-- What the program is asked to do. -/
inductive Command
  /-- Hash the paths, followed by those of a list with colons. -/
  | hash (paths : List Path) (list : Option String) (format : OutputFormat)
  | fingerprint (paths : List Path) (normalizer : Normalizer) (ignore : List String)
      (format : OutputFormat)
  /-- Select a variant as the document says. -/
  | select (document : Path) (format : OutputFormat)
deriving DecidableEq

/-! ## Options -/

/-- Ask for more messages, of which the commands have none. It may also stand before the command. -/
def verboseForm : OptionForm :=
  { name := .verbose, long := "verbose", short := 'v', takesValue := false }

def outputForm : OptionForm := { name := .output, long := "output", short := 'o' }

def classPathForm : OptionForm := { name := .classPath, long := "classpath" }

def normalizerForm : OptionForm := { name := .normalizer, long := "normalizer", short := 'n' }

def ignoreForm : OptionForm := { name := .ignore, long := "ignore", repeats := true }

/-- The value of an option, or the default if it is not given. -/
def valueOf {α : Type} (form : OptionForm) (read : String → Option α) (default : α)
    (args : List Argument) : Except UsageError α :=
  match values form.name args with
  | [] => return default
  | text :: _ =>
    match read text with
    | some a => return a
    | none => throw (.invalidValue form.long text)

/-- The operands as paths. None of them may be empty. -/
def pathsOf (args : List Argument) : Except UsageError (List Path) :=
  if (operands args).contains "" then throw .emptyOperand
  else return (operands args).map Path.mk

namespace Command

/-! ## The commands -/

def parseHash (args : List String) : Except UsageError Command := do
  let args ← readArguments [verboseForm, outputForm, classPathForm] args
  let format ← valueOf outputForm OutputFormat.ofText? .text args
  return hash (← pathsOf args) (values .classPath args).head? format

def parseFingerprint (args : List String) : Except UsageError Command := do
  let args ← readArguments [verboseForm, outputForm, normalizerForm, ignoreForm] args
  let format ← valueOf outputForm OutputFormat.ofText? .text args
  let normalizer ← valueOf normalizerForm Normalizer.ofText? .classPath args
  let paths ← pathsOf args
  if paths.isEmpty then throw .missingOperand
  return fingerprint paths normalizer (values .ignore args) format

def parseSelect (args : List String) : Except UsageError Command := do
  let args ← readArguments [verboseForm, outputForm] args
  let format ← valueOf outputForm OutputFormat.ofText? .text args
  match ← pathsOf args with
  | [] => throw .missingOperand
  | [document] => return select document format
  | _ :: p :: _ => throw (.unexpectedOperand p.text)

/-- The command that the arguments ask for. -/
def parse (args : List String) : Except UsageError Command := do
  let own := args.takeWhile isOptionLike
  let _ ← readArguments [verboseForm] own
  if own.contains "--" then throw .missingCommand
  match args.dropWhile isOptionLike with
  | [] => throw .missingCommand
  | "hash" :: args => parseHash args
  | "fingerprint" :: args => parseFingerprint args
  | "match" :: args => parseSelect args
  | name :: _ => throw (.unknownCommand name)

end Command

end BuildInputs.CommandLine

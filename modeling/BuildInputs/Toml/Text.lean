import BuildInputs.Toml.Value

/-!
# Values on one line

`Toml.text` writes a value the way messages show it. A string is written between the plainest
quotes that need no escapes: double quotes, else single quotes, else three double quotes when it has
line breaks or single quotes in it.
-/

namespace BuildInputs

/-- What decides how a string is quoted. -/
structure QuoteNeeds where
  /-- Longest run of single quotes. -/
  single : Nat
  /-- Longest run of double quotes. -/
  double : Nat
  hasBackslash : Bool
  hasControl : Bool
  hasNewline : Bool

/-- The length of the longest run of `c`. -/
def longestRun (c : Char) (s : List Char) : Nat :=
  (s.foldl (fun (best, run) d =>
    let run := if d = c then run + 1 else 0
    (max best run, run)) (0, 0)).1

/-- Control characters of ASCII other than tab and line feed. -/
def needsEscape (c : Char) : Bool :=
  (c.toNat < 0x20 || c.toNat = 0x7F) && c != '\t' && c != '\n'

def QuoteNeeds.ofChars (s : List Char) : QuoteNeeds where
  single := longestRun '\'' s
  double := longestRun '"' s
  hasBackslash := s.contains '\\'
  hasControl := s.any needsEscape
  hasNewline := s.contains '\n'

/-- A code point as four upper-case hexadecimal digits. -/
def fourHexDigits (n : Nat) : List Char :=
  let digits := (Nat.toDigits 16 n).map Char.toUpper
  List.replicate (4 - digits.length) '0' ++ digits

/--
The body of a string between double quotes. `allowed` is how many double quotes may stand in a row
without an escape and `multiline` says whether a line feed stands for itself; `run` counts the
double quotes just before the character.
-/
def escapeBody (allowed : Nat) (multiline : Bool) (run : Nat) : List Char → List Char
  | [] => []
  | c :: cs =>
    let escaped (e : List Char) := e ++ escapeBody allowed multiline 0 cs
    match c with
    | '"' =>
      if run + 1 ≤ allowed then c :: escapeBody allowed multiline (run + 1) cs
      else escaped ['\\', '"']
    | '\\' => escaped ['\\', '\\']
    | '\x08' => escaped ['\\', 'b']
    | '\t' => escaped ['\\', 't']
    | '\n' => if multiline then c :: escapeBody allowed multiline 0 cs else escaped ['\\', 'n']
    | '\x0c' => escaped ['\\', 'f']
    | '\r' => escaped ['\\', 'r']
    | c =>
      if needsEscape c then escaped (['\\', 'u'] ++ fourHexDigits c.toNat)
      else c :: escapeBody allowed multiline 0 cs

/-- Double quotes with escapes. -/
def basicText (s : List Char) : String := "\"" ++ String.ofList (escapeBody 0 false 0 s) ++ "\""

/-- A string between the plainest quotes that fit. -/
def quotedText (text : String) : String :=
  let s := text.toList
  let n := QuoteNeeds.ofChars s
  let start := if n.hasNewline then "\n" else ""
  let multilineBasic := "\"\"\"" ++ start ++ String.ofList (escapeBody 2 true 0 s) ++ "\"\"\""
  if !n.hasControl && !n.hasBackslash && n.double = 0 && !n.hasNewline then basicText s
  else if !n.hasControl && n.single = 0 && !n.hasNewline then "'" ++ text ++ "'"
  else if !n.hasControl && !n.hasBackslash && n.double ≤ 2 then multilineBasic
  else if !n.hasControl && n.single ≤ 2 then "'''" ++ start ++ text ++ "'''"
  else if n.hasNewline then multilineBasic
  else basicText s

def isBareKeyChar (c : Char) : Bool := c.isAlphanum || c = '_' || c = '-'

/-- A key, without quotes where it can do without. -/
def keyText (key : String) : String :=
  let s := key.toList
  let n := QuoteNeeds.ofChars s
  if !s.isEmpty && s.all isBareKeyChar then key
  else if !n.hasControl && !n.hasNewline && !n.hasBackslash && n.double = 0 then basicText s
  else if !n.hasControl && !n.hasNewline && n.single = 0 then "'" ++ key ++ "'"
  else basicText s

/-- A number with at least `width` digits. -/
def paddedText (width n : Nat) : String :=
  let digits := Nat.toDigits 10 n
  String.ofList (List.replicate (width - digits.length) '0' ++ digits)

namespace Datetime

def dateText (d : Date) : String :=
  s!"{paddedText 4 d.year}-{paddedText 2 d.month}-{paddedText 2 d.day}"

def timeText (t : ClockTime) : String :=
  let fraction := (paddedText 9 t.nanosecond).toList.reverse.dropWhile (· = '0') |>.reverse
  s!"{paddedText 2 t.hour}:{paddedText 2 t.minute}:{paddedText 2 t.second}" ++
    if t.nanosecond = 0 then "" else "." ++ String.ofList fraction

def offsetText : Offset → String
  | .utc => "Z"
  | .minutes n =>
    let m := n.natAbs
    (if n < 0 then "-" else "+") ++ s!"{paddedText 2 (m / 60)}:{paddedText 2 (m % 60)}"

def text (d : Datetime) : String :=
  let joined := match d.date, d.time with
    | some date, some time => dateText date ++ "T" ++ timeText time
    | some date, none => dateText date
    | none, some time => timeText time
    | none, none => ""
  joined ++ (d.offset.map offsetText).getD ""

end Datetime

namespace Toml

mutual

/-- A value on one line, apart from the line breaks of its strings. -/
def text : Toml → String
  | .string s => quotedText s
  | .integer n => toString n.toInt
  | .wideInteger n => toString n
  | .float x => Decimal.floatText x
  | .boolean b => if b then "true" else "false"
  | .datetime d => d.text
  | .array items => "[" ++ String.intercalate ", " (itemTexts items) ++ "]"
  | .table [] => "\x7b\x7d"
  | .table entries => "\x7b " ++ String.intercalate ", " (entryTexts entries) ++ " \x7d"

def itemTexts : List Toml → List String
  | [] => []
  | v :: vs => text v :: itemTexts vs

def entryTexts : List (String × Toml) → List String
  | [] => []
  | (k, v) :: es => (keyText k ++ " = " ++ text v) :: entryTexts es

end

end Toml

end BuildInputs

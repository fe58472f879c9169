import BuildInputs.Toml.Value

/-!
# Scalars without quotes

Booleans, numbers, dates and times are words without blanks. `Toml.ofWord?` reads such a word; only
a date may be followed by a blank and a time, which `Toml.scalar?` takes into account.
-/

namespace BuildInputs.Toml

/-! ## Numbers -/

/-- Digits with single underscores between them, without the underscores. -/
def groupedDigits? (isDigit : Char → Bool) : List Char → Option (List Char)
  | [] => none
  | [c] => if isDigit c then some [c] else none
  | c :: '_' :: cs => if isDigit c then (groupedDigits? isDigit cs).map (c :: ·) else none
  | c :: cs => if isDigit c then (groupedDigits? isDigit cs).map (c :: ·) else none

def isHexDigit (c : Char) : Bool :=
  c.isDigit || ('a' ≤ c && c ≤ 'f') || ('A' ≤ c && c ≤ 'F')

/-- The number that a hexadecimal digit stands for. -/
def hexValue (c : Char) : Nat :=
  if c.isDigit then Decimal.digitValue c
  else if 'a' ≤ c then c.toNat - 'a'.toNat + 10 else c.toNat - 'A'.toNat + 10

/-- The digits of a whole number in decimal: no zero stands before another digit. -/
def wholeDigits? (cs : List Char) : Option (List Char) := do
  let digits ← groupedDigits? Char.isDigit cs
  if digits.length ≠ 1 ∧ digits.head? = some '0' then none else some digits

/-- The sign of a number, and the rest. -/
def splitSign : List Char → Bool × List Char
  | '-' :: cs => (true, cs)
  | '+' :: cs => (false, cs)
  | cs => (false, cs)

def integer? (cs : List Char) : Option Int :=
  match cs with
  | '0' :: 'x' :: digits =>
    (groupedDigits? isHexDigit digits).map fun d => (Decimal.valueIn 16 hexValue d : Nat)
  | '0' :: 'o' :: digits =>
    (groupedDigits? (fun c => '0' ≤ c && c ≤ '7') digits).map
      fun d => (Decimal.valueIn 8 hexValue d : Nat)
  | '0' :: 'b' :: digits =>
    (groupedDigits? (fun c => c = '0' || c = '1') digits).map
      fun d => (Decimal.valueIn 2 hexValue d : Nat)
  | cs =>
    let (negative, digits) := splitSign cs
    (wholeDigits? digits).map fun d =>
      if negative then -(Decimal.value d : Int) else Decimal.value d

/--
The float nearest to `m * 10 ^ e`. Exponents far outside the range of floats are answered at once.
-/
def nearestFloat (m : Nat) (e : Int) : Float :=
  let digits := (Nat.toDigits 10 m).length
  if m = 0 || e + digits < -400 then 0.0
  else if 400 < e + digits then 1.0 / 0.0
  else if e < 0 then Float.ofScientific m true e.natAbs
  else Float.ofScientific m false e.natAbs

/-- The exponent after `e` or `E`: a sign, then digits that may begin with zeros. -/
def exponent? (cs : List Char) : Option Int := do
  let (negative, digits) := splitSign cs
  let digits ← groupedDigits? Char.isDigit digits
  return if negative then -(Decimal.value digits : Int) else Decimal.value digits

/-- A whole part, then a fraction or an exponent or both. What exceeds all floats is none. -/
def finiteFloat? (cs : List Char) : Option Float := do
  let (mantissa, tail) := cs.span fun c => c != 'e' && c != 'E'
  let (whole, fraction) := mantissa.span (· != '.')
  if tail.isEmpty && fraction.isEmpty then none
  let whole ← wholeDigits? whole
  let fraction ← if fraction.isEmpty then some [] else groupedDigits? Char.isDigit (fraction.drop 1)
  let exponent ← if tail.isEmpty then some 0 else exponent? (tail.drop 1)
  let x := nearestFloat (Decimal.value (whole ++ fraction)) (exponent - fraction.length)
  if x.isInf then none else some x

def float? (cs : List Char) : Option Float :=
  let (negative, rest) := splitSign cs
  let magnitude :=
    if rest = ['i', 'n', 'f'] then some (1.0 / 0.0)
    else if rest = ['n', 'a', 'n'] then some (0.0 / 0.0)
    else finiteFloat? rest
  magnitude.map fun x => if negative then -x else x

/-! ## Dates and times -/

/-- A number of exactly `n` digits, and the rest. -/
def fixedDigits? (n : Nat) (cs : List Char) : Option (Nat × List Char) :=
  let digits := cs.take n
  if digits.length = n ∧ digits.all Char.isDigit then some (Decimal.value digits, cs.drop n)
  else none

/-- The rest after an expected character. -/
def after? (c : Char) : List Char → Option (List Char)
  | d :: cs => if d = c then some cs else none
  | [] => none

def isLeapYear (y : Nat) : Bool := y % 4 = 0 && (y % 100 != 0 || y % 400 = 0)

def daysIn (year month : Nat) : Nat :=
  if month = 2 then if isLeapYear year then 29 else 28
  else if month = 4 || month = 6 || month = 9 || month = 11 then 30 else 31

def date? (cs : List Char) : Option (Date × List Char) := do
  let (year, cs) ← fixedDigits? 4 cs
  let (month, cs) ← fixedDigits? 2 (← after? '-' cs)
  let (day, cs) ← fixedDigits? 2 (← after? '-' cs)
  if 1 ≤ month ∧ month ≤ 12 ∧ 1 ≤ day ∧ day ≤ daysIn year month then some (⟨year, month, day⟩, cs)
  else none

/-- The fraction of a second in billionths; further digits are dropped. -/
def fraction? (cs : List Char) : Option (Nat × List Char) :=
  match cs with
  | '.' :: rest =>
    let digits := rest.takeWhile Char.isDigit
    if digits.isEmpty then none
    else
      let nine := (digits ++ List.replicate 9 '0').take 9
      some (Decimal.value nine, rest.dropWhile Char.isDigit)
  | cs => some (0, cs)

/-- The seconds of a time, which may be left out together with their fraction. -/
def seconds? (cs : List Char) : Option (Nat × Nat × List Char) :=
  match cs with
  | ':' :: cs => do
    let (second, cs) ← fixedDigits? 2 cs
    let (nanosecond, cs) ← fraction? cs
    return (second, nanosecond, cs)
  | cs => some (0, 0, cs)

def time? (cs : List Char) : Option (ClockTime × List Char) := do
  let (hour, cs) ← fixedDigits? 2 cs
  let (minute, cs) ← fixedDigits? 2 (← after? ':' cs)
  let (second, nanosecond, cs) ← seconds? cs
  if hour ≤ 23 ∧ minute ≤ 59 ∧ second ≤ 60 then some (⟨hour, minute, second, nanosecond⟩, cs)
  else none

/-- An optional offset that ends the word. -/
def offset? (cs : List Char) : Option (Option Offset) :=
  match cs with
  | [] => some none
  | ['Z'] | ['z'] => some (some .utc)
  | sign :: cs => do
    if sign ≠ '+' ∧ sign ≠ '-' then none
    let (hours, cs) ← fixedDigits? 2 cs
    let (minutes, cs) ← fixedDigits? 2 (← after? ':' cs)
    if cs.isEmpty ∧ hours ≤ 23 ∧ minutes ≤ 59 then
      let n : Int := hours * 60 + minutes
      some (some (.minutes (if sign = '-' then -n else n)))
    else none

/-- A date, a time, or a date and a time with `T` or a blank between them. -/
def datetime? (cs : List Char) : Option Datetime :=
  match date? cs with
  | some (date, []) => some ⟨some date, none, none⟩
  | some (date, sep :: rest) => do
    if sep ≠ 'T' ∧ sep ≠ 't' ∧ sep ≠ ' ' then none
    let (time, rest) ← time? rest
    let offset ← offset? rest
    return ⟨some date, some time, offset⟩
  | none =>
    match time? cs with
    | some (time, []) => some ⟨none, some time, none⟩
    | _ => none

/-! ## Words -/

/-- The scalar that a word denotes. -/
def ofWord? (word : List Char) : Option Toml :=
  if word = "true".toList then some (.boolean true)
  else if word = "false".toList then some (.boolean false)
  else
    (integer? word).map ofInt <|> (float? word).map .float <|> (datetime? word).map .datetime

/-- The characters that words are made of. -/
def isWordChar (c : Char) : Bool := c.isAlphanum || ['_', '-', '+', '.', ':'].contains c

/-- The scalar at the start of the input, and the rest. -/
def scalar? (cs : List Char) : Option (Toml × List Char) :=
  let word := cs.takeWhile isWordChar
  let rest := cs.dropWhile isWordChar
  let joinsTime := match date? word, rest with
    | some (_, []), ' ' :: d :: _ => d.isDigit
    | _, _ => false
  if joinsTime then
    let time := (rest.drop 1).takeWhile isWordChar
    (ofWord? (word ++ ' ' :: time)).map fun v => (v, (rest.drop 1).dropWhile isWordChar)
  else (ofWord? word).map fun v => (v, rest)

end BuildInputs.Toml

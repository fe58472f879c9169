/-!
# Decimal digits

Reading ASCII digit strings as numbers, most significant digit first.
-/

namespace BuildInputs.Decimal

/-- The number a digit stands for. -/
def digitValue (c : Char) : Nat := c.toNat - '0'.toNat

/-- The number that a digit string denotes in the given base. -/
def valueIn (base : Nat) (digit : Char → Nat) (cs : List Char) : Nat :=
  cs.foldl (fun n c => n * base + digit c) 0

/-- The number that a decimal digit string denotes. Leading zeros do not count. -/
def value (cs : List Char) : Nat := valueIn 10 digitValue cs

/--
A signed 64-bit integer: an optional sign, then at least one digit, and a number in range. Blanks,
separators and other digits than those of ASCII are refused.
-/
def parseInt64? (s : String) : Option Int64 :=
  let (negative, digits) := match s.toList with
    | '-' :: cs => (true, cs)
    | '+' :: cs => (false, cs)
    | cs => (false, cs)
  if digits.isEmpty || !digits.all Char.isDigit then none
  else
    let n : Int := if negative then -(value digits : Int) else value digits
    if Int64.minValue.toInt ≤ n ∧ n ≤ Int64.maxValue.toInt then some (Int64.ofInt n) else none

end BuildInputs.Decimal

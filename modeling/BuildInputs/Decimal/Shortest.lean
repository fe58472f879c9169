import BuildInputs.Decimal

/-!
# Shortest decimals of binary fractions

`Shortest.digits` finds the decimal with the fewest digits that a 64-bit float reads back from; of
two such decimals it takes the nearer one, and the upper one when both are equally near. Everything
is exact arithmetic on natural numbers: a float is `m * 2 ^ q`, and the reals that round to it lie
between the midpoints to its neighbours, ends included exactly when `m` is even.
-/

namespace BuildInputs.Decimal

/-- A positive finite float as `m * 2 ^ q`. -/
structure Binary where
  m : Nat
  q : Int
  /-- At a power of two the neighbour below is half as far away as the one above. -/
  closeBelow : Bool

/-- The parts of the bits of a finite float; the sign is ignored. -/
def Binary.ofBits (bits : UInt64) : Binary :=
  let exponent := ((bits >>> 52) &&& 0x7FF).toNat
  let fraction := (bits &&& 0xFFFFFFFFFFFFF).toNat
  if exponent = 0 then ⟨fraction, -1074, false⟩
  else ⟨Nat.pow 2 52 + fraction, exponent - 1075, fraction = 0 && exponent != 1⟩

/-- Four times the value and the two midpoints around it, over a common denominator. -/
structure Interval where
  low : Nat
  value : Nat
  high : Nat
  /-- What four times the value is divided by. -/
  denominator : Nat
  closed : Bool

def Binary.interval (x : Binary) : Interval :=
  let scale := Nat.pow 2 x.q.toNat
  { low := (if x.closeBelow then 4 * x.m - 1 else 4 * x.m - 2) * scale
    value := 4 * x.m * scale
    high := (4 * x.m + 2) * scale
    denominator := 4 * Nat.pow 2 (-x.q).toNat
    closed := x.m % 2 = 0 }

/-- The interval in units of `10 ^ k`. -/
def Interval.inUnits (i : Interval) (k : Int) : Interval :=
  let up := Nat.pow 10 (-k).toNat
  { i with
    low := i.low * up, value := i.value * up, high := i.high * up
    denominator := i.denominator * Nat.pow 10 k.toNat }

/-- Whether `d` units lie in the interval. -/
def Interval.holds (i : Interval) (d : Nat) : Bool :=
  let x := d * i.denominator
  if i.closed then i.low ≤ x && x ≤ i.high else i.low < x && x < i.high

/-- The multiple of the unit that is in the interval and nearest to the value. -/
def Interval.nearest? (i : Interval) : Option Nat :=
  let below := i.value / i.denominator
  let above := below + 1
  match i.holds below, i.holds above with
  | true, true =>
    if i.value - below * i.denominator < above * i.denominator - i.value then below else above
  | true, false => some below
  | false, true => some above
  | false, false => none

/-- How many digits the integer part of the value has, in units of `10 ^ k`. -/
def Interval.wholeDigits (i : Interval) : Nat :=
  let whole := i.value / i.denominator
  if whole = 0 then 0 else (Nat.toDigits 10 whole).length

/-- The largest exponent of a decimal digit that any finite float needs. -/
def topExponent : Int := 309

/--
The exponent `e` with `10 ^ (e - 1) ≤ value < 10 ^ e`, searched downwards from the largest one that
a finite float can have.
-/
def Interval.magnitude (i : Interval) : Int :=
  ((List.range 640).map fun n : Nat => topExponent - n).find? (fun e =>
    (i.inUnits (e - 1)).wholeDigits = 1) |>.getD 0

/-- Digits and exponent: the value is `digits * 10 ^ exponent`. -/
structure Scientific where
  digits : Nat
  exponent : Int

/-- The fewest digits that read back. Seventeen always do. -/
def Binary.shortest (x : Binary) : Scientific :=
  let i := x.interval
  let e := i.magnitude
  ((List.range 17).findSome? fun n : Nat =>
    let k := e - 1 - n
    (i.inUnits k).nearest?.map fun d => (⟨d, k⟩ : Scientific)).getD ⟨0, 0⟩

/-- Positional text, with at least one digit on either side of the point. -/
def Scientific.text (s : Scientific) : String :=
  let digits := Nat.toDigits 10 s.digits
  if 0 ≤ s.exponent then
    String.ofList (digits ++ List.replicate s.exponent.toNat '0') ++ ".0"
  else
    let places := (-s.exponent).toNat
    let padded := List.replicate (places + 1 - digits.length) '0' ++ digits
    let whole := padded.take (padded.length - places)
    let fraction := (padded.drop (padded.length - places)).reverse.dropWhile (· = '0') |>.reverse
    String.ofList whole ++ "." ++ (if fraction.isEmpty then "0" else String.ofList fraction)

/-- The text of a float: `inf`, `nan` without a sign, and all others positional with a point. -/
def floatText (x : Float) : String :=
  if x.isNaN then "nan"
  else
    let sign := if x.toBits >>> 63 = 1 then "-" else ""
    if x.isInf then sign ++ "inf"
    else
      let b := Binary.ofBits x.toBits
      sign ++ if b.m = 0 then "0.0" else b.shortest.text

end BuildInputs.Decimal

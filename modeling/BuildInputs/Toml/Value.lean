import BuildInputs.Decimal.Shortest

/-!
# Values of TOML documents

A document is a table; its values are scalars, arrays and tables. An integer has 64 bits; the text
of a document may hold a larger one, which is kept apart. Table entries are in increasing order of
keys.
-/

namespace BuildInputs

/-- A calendar date. -/
structure Date where
  year : Nat
  month : Nat
  day : Nat
deriving DecidableEq

/-- A time of day; the fraction of a second counts in billionths. -/
structure ClockTime where
  hour : Nat
  minute : Nat
  second : Nat
  nanosecond : Nat
deriving DecidableEq

/-- The distance from universal time. -/
inductive Offset
  | utc
  | minutes (n : Int)
deriving DecidableEq

/-- A date, a time of day, or both, the latter with an offset or without. -/
structure Datetime where
  date : Option Date
  time : Option ClockTime
  offset : Option Offset
deriving DecidableEq

/-- A TOML value. -/
inductive Toml
  | string (s : String)
  | integer (n : Int64)
  /-- An integer that does not fit into 64 bits. -/
  | wideInteger (n : Int)
  | float (x : Float)
  | boolean (b : Bool)
  | datetime (d : Datetime)
  | array (items : List Toml)
  | table (entries : List (String × Toml))

instance : Inhabited Toml := ⟨.boolean false⟩

/-- An integer of any size. -/
def Toml.ofInt (n : Int) : Toml :=
  if Int64.minValue.toInt ≤ n ∧ n ≤ Int64.maxValue.toInt then .integer (Int64.ofInt n)
  else .wideInteger n

/-- The kind of a value, as messages name it. -/
def Toml.kind : Toml → String
  | .string _ => "string"
  | .integer _ | .wideInteger _ => "integer"
  | .float _ => "float"
  | .boolean _ => "boolean"
  | .datetime _ => "datetime"
  | .array _ => "array"
  | .table _ => "table"

end BuildInputs

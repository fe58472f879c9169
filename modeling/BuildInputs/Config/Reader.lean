import BuildInputs.Sorted
import BuildInputs.Toml.Parser
import BuildInputs.Toml.Text

/-!
# Settings in documents

What the documents of this library share: a record is a table of named settings, or an array with
the settings in their order; an enumeration is the name of one of its cases, or a table with that
name as its only key. Settings that nobody asks for are skipped. A value of the wrong kind has no
reading.

Most settings are read where they stand. Where only other settings tell what a setting means, it is
set aside first and read later, and then the document is taken more strictly: see `ReadMode`.
-/

namespace BuildInputs.Toml

/-- When settings are read. -/
inductive ReadMode
  /-- Where they stand. What is left over is skipped. -/
  | direct
  /-- After they have been set aside. Nothing may be left over. -/
  | deferred
deriving DecidableEq

namespace ReadMode

/--
Whether an integer that is too large for 64 bits with a sign can be passed over. With 128 bits it
can; one that is set aside must be a natural number of 64 bits.
-/
def holds (mode : ReadMode) (n : Int) : Bool :=
  match mode with
  | direct => -(Nat.pow 2 127 : Int) ≤ n && n < Nat.pow 2 128
  | deferred => 0 ≤ n && n < Nat.pow 2 64

/-- Whether something may be left over. -/
def allowsRest (mode : ReadMode) : Bool := mode = direct

end ReadMode

mutual

/-- Whether every integer that does not fit into 64 bits passes the test. -/
def wideAll (test : Int → Bool) : Toml → Bool
  | wideInteger n => test n
  | array vs => wideAllItems test vs
  | table es => wideAllEntries test es
  | _ => true

def wideAllItems (test : Int → Bool) : List Toml → Bool
  | [] => true
  | v :: vs => wideAll test v && wideAllItems test vs

def wideAllEntries (test : Int → Bool) : List (String × Toml) → Bool
  | [] => true
  | (_, v) :: es => wideAll test v && wideAllEntries test es

end

/-- Whether every integer of the value can be passed over. -/
def holdable (mode : ReadMode) (v : Toml) : Bool := wideAll mode.holds v

/-- The key of a table that stands for a date or a time. -/
def datetimeKey : String := "$__toml_private_datetime"

/-- Whether the first entry of a table says that the table stands for a date or a time. -/
def standsForDatetime (es : List (String × Toml)) : Bool := es.head?.any (·.1 = datetimeKey)

/-- The date or time that a table stands for, written in its first entry. -/
def datetimeOf? (mode : ReadMode) : List (String × Toml) → Option Datetime
  | (_, string s) :: es => if es.isEmpty || mode.allowsRest then datetime? s.toList else none
  | _ => none

mutual

/-- A value that is passed on as it is: all of its integers have 64 bits. -/
def asValue? (mode : ReadMode) : Toml → Option Toml
  | wideInteger _ => none
  | array vs => (asValues? mode vs).map array
  | table es =>
    if standsForDatetime es then (datetimeOf? mode es).map datetime
    else (asFields? mode es).map table
  | v => some v

def asValues? (mode : ReadMode) : List Toml → Option (List Toml)
  | [] => some []
  | v :: vs => do return (← asValue? mode v) :: (← asValues? mode vs)

def asFields? (mode : ReadMode) : List (String × Toml) → Option (List (String × Toml))
  | [] => some []
  | (k, v) :: es => do return (k, ← asValue? mode v) :: (← asFields? mode es)

end

def asString? : Toml → Option String
  | string s => some s
  | _ => none

def asBoolean? : Toml → Option Bool
  | boolean b => some b
  | _ => none

/-- An array, every item of which is read in the same way. -/
def asList? {α : Type} (item : Toml → Option α) : Toml → Option (List α)
  | array vs => vs.mapM item
  | _ => none

/-- What stands under the keys of a table, in increasing order of keys. -/
abbrev Settings (α : Type) := SortedBy (Prod.fst : String × α → String)

/--
A table, every value of which is read in the same way. A date or a time is a table with its text in
the only entry.
-/
def asSettings? {α : Type} (value : Toml → Option α) : Toml → Option (Settings α)
  | table es => do
    let settings ← es.mapM fun (k, v) => (value v).map (k, ·)
    return .ofList settings
  | datetime d => (value (string d.text)).map fun v => .singleton (datetimeKey, v)
  | _ => none

/-- The name of a case. An empty array may stand for an empty table unless it was set aside. -/
def asCase? (mode : ReadMode) : Toml → Option String
  | string s => some s
  | table [(k, table [])] => some k
  | table [(k, array [])] => if mode = .direct then some k else none
  | _ => none

/-- The settings of a record with the given names. The others are passed over. -/
def asRecord? (mode : ReadMode) (names : List String) : Toml → Option (List (String × Toml))
  | table es => if es.all fun (k, v) => names.contains k || holdable mode v then some es else none
  | array vs =>
    if vs.length ≤ names.length || mode.allowsRest then some (names.zip vs) else none
  | _ => none

/-- The case that a record names under `rule`, and its other settings. -/
def asRule? : Toml → Option (String × Toml)
  | table es => do
    let rule ← asString? (← es.lookup "rule")
    return (rule, .table (es.filter fun e => e.1 ≠ "rule"))
  | array (string rule :: vs) => some (rule, .array vs)
  | _ => none

/-- Nothing but settings that are skipped. -/
def asNothing? (mode : ReadMode) (v : Toml) : Option Unit := (asRecord? mode [] v).map fun _ => ()

/-- A setting that must be there. -/
def required? {α : Type} (es : List (String × Toml)) (name : String) (read : Toml → Option α) :
    Option α := do
  read (← es.lookup name)

/-- A setting that may be left out. -/
def optional? {α : Type} (es : List (String × Toml)) (name : String) (read : Toml → Option α)
    (default : α) : Option α :=
  match es.lookup name with
  | some v => read v
  | none => some default

end BuildInputs.Toml

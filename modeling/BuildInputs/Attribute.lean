import BuildInputs.Version.Parser

/-!
# Attributes and their values

An attribute is a name with a type; a value belongs to exactly one type. Values are totally ordered:
first by type, then within the type.
-/

namespace BuildInputs

/-- The types of attribute values. -/
inductive ValueType
  | string | boolean | integer | version
deriving DecidableEq

namespace ValueType

def text : ValueType → String
  | .string => "string"
  | .boolean => "boolean"
  | .integer => "integer"
  | .version => "version"

/-- The type with the given name. -/
def ofText? : String → Option ValueType
  | "string" => some .string
  | "boolean" => some .boolean
  | "integer" => some .integer
  | "version" => some .version
  | _ => none

/-- Whether "higher" and "lower" mean anything for values of the type. -/
def isOrdered : ValueType → Bool
  | .boolean => false
  | _ => true

/-- The place of the type in the order of values. -/
def rank : ValueType → Nat
  | .string => 0
  | .boolean => 1
  | .integer => 2
  | .version => 3

end ValueType

/-- A typed value. -/
inductive Value
  | string (s : String)
  | boolean (b : Bool)
  | integer (i : Int64)
  | version (v : Version)
deriving DecidableEq

namespace Value

def type : Value → ValueType
  | .string _ => .string
  | .boolean _ => .boolean
  | .integer _ => .integer
  | .version _ => .version

/-- The value as messages show it, without quotes. -/
def text : Value → String
  | .string s => s
  | .boolean b => if b then "true" else "false"
  | .integer i => toString i.toInt
  | .version v => v.text

def string? : Value → Option String
  | .string s => some s
  | _ => none

def boolean? : Value → Option Bool
  | .boolean b => some b
  | _ => none

def integer? : Value → Option Int64
  | .integer i => some i
  | _ => none

def version? : Value → Option Version
  | .version v => some v
  | _ => none

/-- By type, then within the type. Values of one type differ in one of the later keys at most. -/
instance : Ord Value :=
  ⟨compareLex (compareOn fun v => v.type.rank) <| compareLex (compareOn string?) <|
    compareLex (compareOn boolean?) <| compareLex (compareOn integer?) (compareOn version?)⟩

instance : Std.TransOrd Value := inferInstanceAs (Std.TransCmp (compareLex _ _))

end Value

/-- A named, typed classification key. -/
structure Attribute where
  name : String
  type : ValueType
deriving DecidableEq

/-- Why a set of attributes could not be built. -/
inductive AttributeError
  /-- The value is not of the attribute's type. -/
  | typeMismatch (key : Attribute) (value : Value)
  /-- The set already holds the name with another type. -/
  | conflictingType (name : String) (existing requested : ValueType)
deriving DecidableEq

def AttributeError.message : AttributeError → String
  | .typeMismatch a v =>
    s!"value '{v.text}' of type {v.type.text} does not fit attribute '{a.name}' " ++
      s!"of type {a.type.text}"
  | .conflictingType n e r =>
    s!"attribute '{n}' is already present with type {e.text}, cannot add it as {r.text}"

/-- A value must have the attribute's type. -/
def Attribute.check (a : Attribute) (v : Value) : Except AttributeError Unit :=
  if v.type = a.type then return () else throw (.typeMismatch a v)

end BuildInputs

import BuildInputs.Component
import BuildInputs.Disk
import BuildInputs.Schema
import BuildInputs.Toml.Text

/-!
# Values of documents as attribute values

A document gives values to attributes. Where the type of the attribute is known, the value must be
of the matching kind; a version is written as a string. A table key can stand for a value of any
type.
-/

namespace BuildInputs

/-- What a document has in the place of an attribute value. -/
inductive Mismatch
  /-- A value of another kind than the type asks for. -/
  | kind (expected : ValueType) (found : Toml)
  /-- A table key that is no value of the type. -/
  | key (expected : ValueType) (found : String)
  /-- A text that is no version. -/
  | version (found : String) (cause : VersionError)
  /-- A value that has no type at all. -/
  | untyped (found : Toml)

/-- Why a document cannot be used. -/
inductive ConfigError
  | unreadable (path : Path) (cause : DiskError)
  /-- The text is no document, or its settings are not as they should be. -/
  | malformed
  | schema (cause : SchemaError)
  | invalidValue (name : String) (mismatch : Mismatch)
  | component (candidate : String) (cause : ComponentError)
  | attribute (cause : AttributeError)

/-- A value with its kind. -/
def Toml.describe (v : Toml) : String := s!"{v.kind} {v.text}"

namespace Mismatch

def expectation : Mismatch → String
  | kind t _ | key t _ => t.text
  | version .. => "a semantic version"
  | untyped _ => "a string, boolean or integer"

def finding : Mismatch → String
  | kind _ v | untyped v => v.describe
  | key _ k => s!"'{k}'"
  | version text e => s!"'{text}' ({e.message})"

end Mismatch

def ConfigError.message : ConfigError → String
  | .unreadable p e => s!"failed to read {p.text}: {e.message}"
  | .malformed => "invalid configuration"
  | .schema e => e.message
  | .invalidValue name m =>
    s!"invalid value for attribute '{name}': expected {m.expectation}, found {m.finding}"
  | .component name e => s!"candidate '{name}': {e.message}"
  | .attribute e => e.message

namespace Attribute

/-- The version that a text denotes. -/
def readVersion (a : Attribute) (s : String) : Except ConfigError Value :=
  match Version.parse s with
  | .ok v => return .version v
  | .error e => throw (.invalidValue a.name (.version s e))

/-- A value of a document as a value of the attribute's type. -/
def coerce (a : Attribute) (v : Toml) : Except ConfigError Value :=
  match a.type, v with
  | .string, .string s => return .string s
  | .boolean, .boolean b => return .boolean b
  | .integer, .integer n => return .integer n
  | .version, .string s => a.readVersion s
  | t, v => throw (.invalidValue a.name (.kind t v))

/-- A table key as a value of the attribute's type. -/
def coerceKey (a : Attribute) (k : String) : Except ConfigError Value :=
  match a.type with
  | .string => return .string k
  | .boolean =>
    if k = "true" then return .boolean true
    else if k = "false" then return .boolean false
    else throw (.invalidValue a.name (.key .boolean k))
  | .integer =>
    match Decimal.parseInt64? k with
    | some n => return .integer n
    | none => throw (.invalidValue a.name (.key .integer k))
  | .version => a.readVersion k

end Attribute

/-- The type that a value of a document has of its own. -/
def Toml.valueType? : Toml → Option ValueType
  | string _ => some .string
  | boolean _ => some .boolean
  | integer _ => some .integer
  | _ => none

end BuildInputs

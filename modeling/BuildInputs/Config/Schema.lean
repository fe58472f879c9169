import BuildInputs.Config.Coercion
import BuildInputs.Config.Reader

/-!
# Schema documents

A schema document lists attributes with their rules, and the precedence by names. `SchemaConfig` is
what such a document says; `SchemaConfig.build` turns it into a schema.
-/

namespace BuildInputs

/-- The compatibility rule that a document gives an attribute. -/
inductive CompatibilityConfig
  | equality | atMost | atLeast
  /-- For requested values, written as keys, the other candidate values that satisfy them. -/
  | compatibleValues (values : Toml.Settings (List Toml))

/-- The disambiguation rule that a document gives an attribute. -/
inductive PreferenceConfig
  | indifferent | requested | highest | lowest
  | listed (order : List Toml)

structure AttributeConfig where
  name : String
  type : ValueType
  mandatory : Bool := false
  compatibility : CompatibilityConfig := .equality
  preference : PreferenceConfig := .indifferent

namespace AttributeConfig

def key (c : AttributeConfig) : Attribute := ⟨c.name, c.type⟩

end AttributeConfig

/-- What a schema document says. -/
structure SchemaConfig where
  /-- The names in order of precedence. Their absence is noticed when the schema is built. -/
  precedence : Option (List String) := none
  attributes : List AttributeConfig := []

/-! ## Reading -/

namespace CompatibilityConfig

def ofToml? (v : Toml) : Option CompatibilityConfig := do
  if !v.holdable .deferred then none
  let (rule, settings) ← v.asRule?
  match rule with
  | "equality" => (settings.asNothing? .deferred).map fun _ => equality
  | "at-most" => (settings.asNothing? .deferred).map fun _ => atMost
  | "at-least" => (settings.asNothing? .deferred).map fun _ => atLeast
  | "compatible-values" => do
    let es ← settings.asRecord? .deferred ["values"]
    let values ← Toml.required? es "values"
      (Toml.asSettings? (Toml.asList? (Toml.asValue? .deferred)))
    return compatibleValues values
  | _ => none

end CompatibilityConfig

namespace PreferenceConfig

def ofToml? (v : Toml) : Option PreferenceConfig := do
  if !v.holdable .deferred then none
  let (rule, settings) ← v.asRule?
  match rule with
  | "none" => (settings.asNothing? .deferred).map fun _ => indifferent
  | "prefer-requested" => (settings.asNothing? .deferred).map fun _ => requested
  | "highest" => (settings.asNothing? .deferred).map fun _ => highest
  | "lowest" => (settings.asNothing? .deferred).map fun _ => lowest
  | "ordered" => do
    let es ← settings.asRecord? .deferred ["order"]
    let order ← Toml.required? es "order" (Toml.asList? (Toml.asValue? .deferred))
    return listed order
  | _ => none

end PreferenceConfig

def AttributeConfig.ofToml? (mode : Toml.ReadMode) (v : Toml) : Option AttributeConfig := do
  let es ← v.asRecord? mode ["name", "type", "mandatory", "compatibility", "disambiguation"]
  return {
    name := ← Toml.required? es "name" Toml.asString?
    type := ← Toml.required? es "type" fun v => do ValueType.ofText? (← v.asCase? mode)
    mandatory := ← Toml.optional? es "mandatory" Toml.asBoolean? false
    compatibility := ← Toml.optional? es "compatibility" CompatibilityConfig.ofToml? .equality
    preference := ← Toml.optional? es "disambiguation" PreferenceConfig.ofToml? .indifferent }

namespace SchemaConfig

/-- The names of the schema settings. -/
def settings : List String := ["precedence", "attributes"]

/-- The schema settings among others. -/
def ofSettings? (mode : Toml.ReadMode) (es : List (String × Toml)) : Option SchemaConfig := do
  let precedence ← Toml.optional? es "precedence"
    (fun v => (v.asList? Toml.asString?).map some) none
  let attributes ← Toml.optional? es "attributes"
    (Toml.asList? (AttributeConfig.ofToml? mode)) []
  return { precedence, attributes }

def ofToml? : Toml → Option SchemaConfig
  | .table es => do ofSettings? .direct (← (Toml.table es).asRecord? .direct settings)
  | _ => none

/-- The schema settings of a document. -/
def parse (source : String) : Except ConfigError SchemaConfig :=
  match (Toml.parse? source).bind ofToml? with
  | some c => return c
  | none => throw .malformed

end SchemaConfig

/-! ## Meaning -/

namespace AttributeConfig

/-- The rows of a table of compatible values, as pairs of a request and a candidate. -/
def acceptedPairs (a : Attribute) (row : String × List Toml) :
    Except ConfigError (List (Value × Value)) := do
  let requested ← a.coerceKey row.1
  row.2.mapM fun v => do return (requested, ← a.coerce v)

def compatibilityRule (c : AttributeConfig) : Except ConfigError Compatibility :=
  match c.compatibility with
  | .equality => return .equality
  | .atMost => return .atMost
  | .atLeast => return .atLeast
  | .compatibleValues rows => do
    return .orAccepted (← rows.toList.mapM (acceptedPairs c.key)).flatten

def preferenceRule (c : AttributeConfig) : Except ConfigError Preference :=
  match c.preference with
  | .indifferent => return .indifferent
  | .requested => return .requested
  | .highest => return .highest
  | .lowest => return .lowest
  | .listed order => do return .listed (← order.mapM c.key.coerce)

def registration (c : AttributeConfig) : Except ConfigError Registration := do
  let compatibility ← c.compatibilityRule
  let preference ← c.preferenceRule
  return { key := c.key, mandatory := c.mandatory, compatibility, preference }

end AttributeConfig

namespace SchemaConfig

/-- The attribute declared under a name; of several the last one counts. -/
def declared? (c : SchemaConfig) (name : String) : Option Attribute :=
  (c.attributes.reverse.find? fun a => a.name = name).map AttributeConfig.key

/-- The declared attribute that a precedence entry means. -/
def precedenceEntry (c : SchemaConfig) (name : String) : Except ConfigError Attribute :=
  match c.declared? name with
  | some a => return a
  | none => throw (.schema (.unknownPrecedence name))

/-- The document as the configuration phase of a schema. -/
def draft (c : SchemaConfig) : Except ConfigError SchemaDraft := do
  let registrations ← c.attributes.mapM AttributeConfig.registration
  match c.precedence with
  | none => return { registrations }
  | some names => return { registrations, precedence := some (← names.mapM c.precedenceEntry) }

/-- The schema that the document describes. -/
def build (c : SchemaConfig) : Except ConfigError Schema := do
  (← c.draft).build.mapError .schema

end SchemaConfig

end BuildInputs

import BuildInputs.Config.Schema
import BuildInputs.Selection

/-!
# Match requests

A match request document is a schema document with a request and the candidates to choose from.
`RequestConfig.resolve` gives every value its type: that of the registered attribute, or for an
attribute that the schema does not know the type of the value itself. Unknown attributes of a
request therefore show up when it is matched.
-/

namespace BuildInputs

/-- A candidate as the document gives it. -/
structure CandidateConfig where
  component : String
  name : String
  attributes : Toml.Settings Toml := .empty

/-- What a match request document says. -/
structure RequestConfig where
  schema : SchemaConfig := {}
  filter : ComponentFilter := .any
  request : Toml.Settings Toml := .empty
  candidates : List CandidateConfig := []

/-- A request that is ready to be matched. -/
structure MatchRequest where
  schema : Schema
  filter : ComponentFilter
  requested : AttributeSet
  candidates : List Variant

/-! ## Reading -/

def CandidateConfig.ofToml? (v : Toml) : Option CandidateConfig := do
  let es ← v.asRecord? .direct ["component", "name", "attributes"]
  return {
    component := ← Toml.required? es "component" Toml.asString?
    name := ← Toml.required? es "name" Toml.asString?
    attributes := ← Toml.optional? es "attributes" (Toml.asSettings? (Toml.asValue? .direct))
      .empty }

namespace RequestConfig

/-- The settings that do not belong to the schema. -/
def ownSettings : List String := ["filter", "request", "candidates"]

def ofToml? : Toml → Option RequestConfig
  | .table es => do
    let (own, others) := es.partition fun e => ownSettings.contains e.1
    if !(Toml.table others).holdable .deferred then none
    return {
      schema := ← SchemaConfig.ofSettings? .deferred others
      filter := ← Toml.optional? own "filter"
        (fun v => do ComponentFilter.ofText? (← v.asCase? .direct)) .any
      request := ← Toml.optional? own "request" (Toml.asSettings? (Toml.asValue? .direct)) .empty
      candidates := ← Toml.optional? own "candidates" (Toml.asList? CandidateConfig.ofToml?) [] }
  | _ => none

/-- The settings of a match request document. -/
def parse (source : String) : Except ConfigError RequestConfig :=
  match (Toml.parse? source).bind ofToml? with
  | some c => return c
  | none => throw .malformed

end RequestConfig

/-! ## Meaning -/

namespace Schema

/-- The attribute that a document means by a name with a value. -/
def keyOf (s : Schema) (name : String) (v : Toml) : Except ConfigError Attribute :=
  match s.find? name, v.valueType? with
  | some r, _ => return r.key
  | none, some t => return ⟨name, t⟩
  | none, none => throw (.invalidValue name (.untyped v))

/-- Put the value of one setting under its name. -/
def readEntry (s : Schema) (set : AttributeSet) (setting : String × Toml) :
    Except ConfigError AttributeSet := do
  let a ← s.keyOf setting.1 setting.2
  let v ← a.coerce setting.2
  (set.put a v).mapError .attribute

/-- The attribute set that the settings of a table describe. -/
def readSet (s : Schema) (settings : Toml.Settings Toml) : Except ConfigError AttributeSet :=
  settings.toList.foldlM s.readEntry SortedBy.empty

/-- The variant that a candidate describes. -/
def readCandidate (s : Schema) (c : CandidateConfig) : Except ConfigError Variant := do
  let component ← (Component.parse c.component).mapError (.component c.name)
  return ⟨component, c.name, ← s.readSet c.attributes⟩

end Schema

namespace RequestConfig

/-- Build the schema and give every value its type. -/
def resolve (c : RequestConfig) : Except ConfigError MatchRequest := do
  let schema ← c.schema.build
  let requested ← schema.readSet c.request
  let candidates ← c.candidates.mapM schema.readCandidate
  return { schema, filter := c.filter, requested, candidates }

end RequestConfig

/-- The variant that the request selects. -/
def MatchRequest.select (r : MatchRequest) : Except SelectionError VariantId :=
  r.schema.selectVariant r.filter r.candidates r.requested

/-! ## Loading -/

namespace Disk

variable {m : Type → Type} [Monad m]

/-- The text of a document. -/
def readDocument (disk : Disk m) (p : Path) : m (Except ConfigError String) := do
  return (← disk.readText p).mapError (.unreadable p)

/-- The schema document at a path. -/
def loadSchema (disk : Disk m) (p : Path) : m (Except ConfigError SchemaConfig) := do
  return (← disk.readDocument p) >>= SchemaConfig.parse

/-- The match request document at a path. -/
def loadRequest (disk : Disk m) (p : Path) : m (Except ConfigError RequestConfig) := do
  return (← disk.readDocument p) >>= RequestConfig.parse

end Disk

end BuildInputs

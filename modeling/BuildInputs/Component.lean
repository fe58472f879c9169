import BuildInputs.Attribute.Set
import BuildInputs.Json
import BuildInputs.Text.Split

/-!
# Components and their variants

A component is a project of the build or an external module, written `project:<path>` or
`module:<group>:<name>:<version>`. It offers variants, each with a display name and attributes.
-/

namespace BuildInputs

/-- The owner of a set of variants. -/
inductive Component
  /-- Another project of the build. -/
  | project (path : String)
  /-- An external dependency. -/
  | module (group name version : String)
deriving DecidableEq

/-- A text that identifies no component. -/
structure ComponentError where
  input : String
deriving DecidableEq

def ComponentError.message (e : ComponentError) : String :=
  s!"invalid component identifier '{e.input}': " ++
    "expected project:<path> or module:<group>:<name>:<version>"

namespace Component

def isProject : Component → Bool
  | project _ => true
  | module .. => false

/-- The component as messages show it. -/
def text : Component → String
  | project path => s!"project {path}"
  | module group name version => s!"{group}:{name}:{version}"

/-- The component that a text denotes: what comes before the first colon says which kind it is. -/
def ofChars? (cs : List Char) : Option Component :=
  match Text.cutFirst? ':' cs with
  | some (keyword, rest) =>
    if keyword = "project".toList then
      if rest.isEmpty then none else some (project (String.ofList rest))
    else if keyword = "module".toList then
      match Text.splitAll ':' rest with
      | [group, name, version] =>
        if group.isEmpty || name.isEmpty || version.isEmpty then none
        else some (module (String.ofList group) (String.ofList name) (String.ofList version))
      | _ => none
    else none
  | none => none

/--
The component that a text identifies: `project:` and a path, which may hold further colons, or
`module:` and exactly three fields. No field is empty.
-/
def parse (s : String) : Except ComponentError Component :=
  match ofChars? s.toList with
  | some c => return c
  | none => throw ⟨s⟩

def json : Component → Json
  | project path => .object [("kind", .string "project"), ("path", .string path)]
  | module group name version => .object
      [("kind", .string "module"), ("group", .string group), ("name", .string name),
        ("version", .string version)]

/-- The fields in the order in which components are compared: projects come first. -/
def sortKey : Component → List String
  | project path => ["0", path]
  | module group name version => ["1", group, name, version]

instance : Ord Component := ⟨compareOn sortKey⟩

end Component

/-- The identity of a selected variant. -/
structure VariantId where
  component : Component
  name : String
deriving DecidableEq

def VariantId.text (v : VariantId) : String := s!"variant '{v.name}' of {v.component.text}"

def VariantId.json (v : VariantId) : Json :=
  .object [("component", v.component.json), ("display_name", .string v.name)]

/-- A variant that a component offers. -/
structure Variant where
  component : Component
  name : String
  attributes : AttributeSet
deriving DecidableEq

def Variant.id (v : Variant) : VariantId := ⟨v.component, v.name⟩

/-- Which components may provide the selected variant. -/
inductive ComponentFilter
  | any | projectsOnly | externalOnly
deriving DecidableEq

namespace ComponentFilter

def accepts : ComponentFilter → Component → Bool
  | any, _ => true
  | projectsOnly, c => c.isProject
  | externalOnly, c => !c.isProject

def text : ComponentFilter → String
  | any => "any"
  | projectsOnly => "projects-only"
  | externalOnly => "external-only"

/-- The filter with the given name. -/
def ofText? : String → Option ComponentFilter
  | "any" => some any
  | "projects-only" => some projectsOnly
  | "external-only" => some externalOnly
  | _ => none

end ComponentFilter

end BuildInputs

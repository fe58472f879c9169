import BuildInputs.Component
import BuildInputs.Matching

/-!
# Selecting one variant

Selection succeeds when exactly one variant of the accepted components is left by matching. Both
other outcomes are failures that report, for each variant concerned, how every requested attribute
fared.
-/

namespace BuildInputs

/-- Why one variant did or did not fit a request. -/
structure VariantReport where
  id : VariantId
  attributes : AttributeSet
  reports : List MatchReport

/-- Why not exactly one variant was selected. -/
inductive SelectionError
  /-- No accepted variant is compatible; all of them are reported. -/
  | noMatch (requested : AttributeSet) (variants : List VariantReport)
  /-- Several variants are left, and they are reported. -/
  | ambiguous (requested : AttributeSet) (variants : List VariantReport)
  /-- The request or a variant contradicts the schema. -/
  | mismatch (cause : MatchError)

/-- One line for the variant and one for each requested attribute. -/
def VariantReport.text (r : VariantReport) : String :=
  s!"\n  - {r.id.text} {r.attributes.text}" ++
    String.join (r.reports.map fun d => "\n      " ++ d.text)

def SelectionError.message : SelectionError → String
  | .noMatch requested variants =>
    s!"no variant matches {requested.text}" ++ String.join (variants.map VariantReport.text)
  | .ambiguous requested variants =>
    s!"{variants.length} variants match {requested.text} and none is preferred" ++
      String.join (variants.map VariantReport.text)
  | .mismatch e => e.message

namespace Schema

def reportVariant (s : Schema) (requested : AttributeSet) (v : Variant) : VariantReport :=
  ⟨v.id, v.attributes, s.explain v.attributes requested⟩

/-- The one variant among those of accepted components that matching leaves. -/
def selectVariant (s : Schema) (filter : ComponentFilter) (variants : List Variant)
    (requested : AttributeSet) : Except SelectionError VariantId := do
  let eligible := variants.filter fun v => filter.accepts v.component
  match ← (s.select Variant.attributes eligible requested).mapError .mismatch with
  | [] => throw (.noMatch requested (eligible.map (s.reportVariant requested)))
  | [v] => return v.id
  | vs => throw (.ambiguous requested (vs.map (s.reportVariant requested)))

end Schema

end BuildInputs

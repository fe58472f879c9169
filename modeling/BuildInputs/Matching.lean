import BuildInputs.Schema

/-!
# Matching attribute sets

`Schema.select` keeps the candidates that are compatible with a request and, while several are left,
goes through the precedence of the schema: each attribute's preference picks the best of the values
that the remaining candidates carry, and candidates with another value are dropped. No candidate or
several may be left; neither is an error. Errors are confined to attributes that the schema does not
know, or knows with another type.
-/

namespace BuildInputs

/-- A use of attributes that contradicts the schema. -/
inductive MatchError
  | unregistered (name : String)
  | typeMismatch (registered : Attribute) (found : ValueType)
  | value (cause : AttributeError)
deriving DecidableEq

def MatchError.message : MatchError → String
  | .unregistered n => s!"attribute '{n}' is not registered in the schema"
  | .typeMismatch a found =>
    s!"attribute '{a.name}' is registered as {a.type.text} but used as {found.text}"
  | .value e => e.message

namespace Registration

/-- A use of the attribute must have its registered type. -/
def checkType (r : Registration) (found : ValueType) : Except MatchError Unit :=
  if r.key.type = found then return () else throw (.typeMismatch r.key found)

/-- The value that a set holds under the registered name. -/
def valueIn? (r : Registration) (s : AttributeSet) : Except MatchError (Option Value) :=
  match s.entry? r.name with
  | none => return none
  | some e => do
    r.checkType e.value.type
    return some e.value

end Registration

namespace Schema

/-- The registration of an attribute, which must have the registered type. -/
def registrationOf (s : Schema) (a : Attribute) : Except MatchError Registration :=
  match s.find? a.name with
  | none => throw (.unregistered a.name)
  | some r => do
    r.checkType a.type
    return r

/-! ## Compatibility -/

/-- Whether a candidate satisfies every one of the requested entries, in their order. -/
def satisfies (s : Schema) (candidate : AttributeSet) : List Entry → Except MatchError Bool
  | [] => return true
  | e :: es => do
    let r ← s.registrationOf e.key
    let ok := match ← r.valueIn? candidate with
      | none => !r.mandatory
      | some v => r.compatibility.accepts v e.value
    if ok then satisfies s candidate es else return false

/--
A candidate matches when it has, for every requested attribute, no value at all (unless the
attribute is mandatory) or a compatible one.
-/
def isMatch (s : Schema) (candidate requested : AttributeSet) : Except MatchError Bool :=
  s.satisfies candidate requested.entries

/--
Whether the value of one entry agrees with the second set: in either direction by the attribute's
rule, or by equality if the attribute is not registered.
-/
def agreesWith (s : Schema) (first second : AttributeSet) (e : Entry) : Except MatchError Bool :=
  match second.entry? e.name with
  | none => return true
  | some other =>
    match s.find? e.name with
    | none => return e = other
    | some r => do
      match ← r.valueIn? first, ← r.valueIn? second with
      | some a, some b => return r.compatibility.accepts a b || r.compatibility.accepts b a
      | _, _ => return true

/-- Whether all of the entries agree with the second set. -/
def allAgree (s : Schema) (first second : AttributeSet) : List Entry → Except MatchError Bool
  | [] => return true
  | e :: es => do
    if ← s.agreesWith first second e then allAgree s first second es else return false

/-- Two sets are mutually compatible when every attribute they share agrees. -/
def mutuallyCompatible (s : Schema) (first second : AttributeSet) : Except MatchError Bool :=
  s.allAgree first second first.entries

/-- The compatibility of two values of one attribute. -/
def isMatchingValue (s : Schema) (a : Attribute) (candidate requested : Value) :
    Except MatchError Bool := do
  let r ← s.registrationOf a
  (a.check candidate).mapError .value
  (a.check requested).mapError .value
  return r.compatibility.accepts candidate requested

/-! ## Selection -/

section Select

variable {α : Type} (attributes : α → AttributeSet)

/-- Every requested attribute must be registered with its type, whatever the candidates are. -/
def checkRequest (s : Schema) : List Entry → Except MatchError Unit
  | [] => return ()
  | e :: es => do
    let _ ← s.registrationOf e.key
    checkRequest s es

/-- The candidates that match, in their order. -/
def compatible (s : Schema) (requested : AttributeSet) : List α → Except MatchError (List α)
  | [] => return []
  | c :: cs => do
    let ok ← s.isMatch (attributes c) requested
    let rest ← compatible s requested cs
    return if ok then c :: rest else rest

/-- The values that candidates carry for a registered attribute. -/
def carriedValues (r : Registration) (candidates : List α) : Except MatchError ValueSet :=
  candidates.foldlM (fun values c => do
    match ← r.valueIn? (attributes c) with
    | some v => return values.insert v
    | none => return values) SortedBy.empty

/--
The preferred values among those carried. Values that a rule makes up select nothing, so they are
left out.
-/
def bestCarried (r : Registration) (request : Option Value) (carried : ValueSet) : ValueSet :=
  (r.preference.best request carried).filter carried.contains

/-- Keep the candidates that carry one of the values or lack the attribute. -/
def keepCarriers (a : Attribute) (values : ValueSet) (candidates : List α) : List α :=
  candidates.filter fun c => ((attributes c).get? a).all values.contains

/-- One round: drop the candidates with a value of `a` that is not among the best. -/
def narrowBy (s : Schema) (requested : AttributeSet) (a : Attribute) (candidates : List α) :
    Except MatchError (List α) := do
  let r ← s.registrationOf a
  if r.preference.isTrivial then return candidates
  let carried ← carriedValues attributes r candidates
  if carried.isEmpty then return candidates
  let best := bestCarried r (requested.get? a) carried
  if best.isEmpty || best.size = carried.size then return candidates
  return keepCarriers attributes a best candidates

/-- A round for every attribute of the precedence while more than one candidate is left. -/
def narrow (s : Schema) (requested : AttributeSet) :
    List Attribute → List α → Except MatchError (List α)
  | [], candidates => return candidates
  | a :: as, candidates =>
    if candidates.length ≤ 1 then return candidates
    else do narrow s requested as (← s.narrowBy attributes requested a candidates)

/-- The compatible candidates that the precedence leaves, in their order. -/
def select (s : Schema) (candidates : List α) (requested : AttributeSet) :
    Except MatchError (List α) := do
  s.checkRequest requested.entries
  let matching ← s.compatible attributes requested candidates
  if matching.length ≤ 1 then return matching
  s.narrow attributes requested s.precedence matching

end Select

end Schema

/-! ## Explanation -/

/-- How one requested attribute fared against one candidate. -/
structure MatchReport where
  requested : Entry
  found : Option Entry
  isMatch : Bool

def MatchReport.text (d : MatchReport) : String :=
  let verdict := if d.isMatch then "compatible" else "incompatible"
  match d.found with
  | some e =>
    s!"{d.requested.name}: requested '{d.requested.value.text}', found '{e.value.text}' ({verdict})"
  | none => s!"{d.requested.name}: requested '{d.requested.value.text}', not provided ({verdict})"

namespace Schema

/--
The report for one requested entry. It never fails: attributes that are not registered are compared
for equality, and a type that contradicts the schema is a mismatch.
-/
def report (s : Schema) (candidate : AttributeSet) (e : Entry) : MatchReport :=
  let found := candidate.entry? e.name
  let isMatch := match found, s.find? e.name with
    | none, some r => !r.mandatory
    | none, none => true
    | some f, some r => f.key = r.key && e.key = r.key && r.compatibility.accepts f.value e.value
    | some f, none => f = e
  ⟨e, found, isMatch⟩

/-- One report per requested attribute, in the order of the request. -/
def explain (s : Schema) (candidate requested : AttributeSet) : List MatchReport :=
  requested.entries.map (s.report candidate)

end Schema

end BuildInputs

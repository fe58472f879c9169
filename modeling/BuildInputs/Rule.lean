import BuildInputs.Attribute
import BuildInputs.Sorted

/-!
# Rules of an attribute

Every registered attribute has two rules. Its compatibility says which candidate values satisfy a
requested value; its preference says which of several satisfying values are best. The built-in rules
are constructors; `custom` takes any function.
-/

namespace BuildInputs

/-- Finite sets of values, in increasing order. -/
abbrev ValueSet := SortedSet Value

/-- Which candidate values satisfy a requested value. -/
inductive Compatibility
  /-- The equal value only. -/
  | equality
  /-- A value not above the request: what targets level 11 runs on level 17. -/
  | atMost
  /-- A value not below the request. -/
  | atLeast
  /-- The equal value, and the candidate of each listed pair (request, candidate). -/
  | orAccepted (accepted : List (Value × Value))
  /-- Any test on (candidate, request). -/
  | custom (test : Value → Value → Bool) (ordering : Bool)

namespace Compatibility

/-- Whether the candidate satisfies the request. -/
def accepts (rule : Compatibility) (candidate requested : Value) : Bool :=
  match rule with
  | equality => candidate = requested
  | atMost => (compare candidate requested).isLE
  | atLeast => (compare candidate requested).isGE
  | orAccepted accepted => candidate = requested || accepted.contains (requested, candidate)
  | custom test _ => test candidate requested

/-- Whether the rule asks which of two values is higher. -/
def needsOrdering : Compatibility → Bool
  | atMost | atLeast => true
  | custom _ ordering => ordering
  | _ => false

end Compatibility

/-- Which of the values carried by the remaining candidates are preferred. -/
inductive Preference
  /-- All values are equally good. -/
  | indifferent
  /-- The requested value; without it all are equally good. -/
  | requested
  /-- The requested value, else the highest. -/
  | highest
  /-- The requested value, else the lowest. -/
  | lowest
  /-- The requested value, else the first value of the list that is present, else all. -/
  | listed (order : List Value)
  /-- Any function of the requested value, if there is one, and the values present. -/
  | custom (choose : Option Value → ValueSet → ValueSet) (ordering trivial : Bool)

namespace Preference

/-- The requested value alone, if it is among the values present. -/
def exactMatch (request : Option Value) (present : ValueSet) : Option ValueSet :=
  (request.filter present.contains).map SortedBy.singleton

/-- The preferred values among those present. -/
def best (rule : Preference) (request : Option Value) (present : ValueSet) : ValueSet :=
  match rule with
  | indifferent => present
  | requested => (exactMatch request present).getD present
  | highest => (exactMatch request present <|> present.max?.map SortedBy.singleton).getD .empty
  | lowest => (exactMatch request present <|> present.min?.map SortedBy.singleton).getD .empty
  | listed order =>
    (exactMatch request present <|> (order.find? present.contains).map SortedBy.singleton).getD
      present
  | custom choose _ _ => choose request present

/-- Whether the rule asks which of two values is higher. -/
def needsOrdering : Preference → Bool
  | highest | lowest => true
  | custom _ ordering _ => ordering
  | _ => false

/-- Whether the rule declares that it never narrows a choice. -/
def isTrivial : Preference → Bool
  | indifferent => true
  | custom _ _ trivial => trivial
  | _ => false

end Preference

end BuildInputs

import BuildInputs.Attribute.Set
import BuildInputs.Rule

/-!
# Attribute schemas

A schema knows the attributes a request may use, their rules, and the precedence in which they
decide between several compatible candidates. A `SchemaDraft` is configured freely;
`SchemaDraft.build` checks it once and freezes it into a `Schema`, whose fields carry what the
checks established:

* no attribute without ordering has a rule that needs one,
* the precedence lists registered attributes, with their registered types, each once.

`SchemaDraft.problem?` is the first violation in the order of the draft. When it finds none the
draft is well formed (`problem?_eq_none`), which is what freezing needs.
-/

namespace BuildInputs

/-- An attribute with its rules. -/
structure Registration where
  key : Attribute
  /-- A candidate without a mandatory attribute never matches a request for it. -/
  mandatory : Bool := false
  compatibility : Compatibility := .equality
  preference : Preference := .indifferent

/-- The two kinds of rules, as errors name them. -/
inductive RuleKind
  | compatibility | disambiguation
deriving DecidableEq

/-- Why a draft could not be frozen. -/
inductive SchemaError
  | duplicateAttribute (name : String)
  | missingPrecedence
  | unknownPrecedence (name : String)
  | duplicatePrecedence (name : String)
  | unorderedType (key : Attribute) (rule : RuleKind)
deriving DecidableEq

def RuleKind.text : RuleKind → String
  | .compatibility => "compatibility"
  | .disambiguation => "disambiguation"

def SchemaError.message : SchemaError → String
  | .duplicateAttribute n => s!"attribute '{n}' is registered more than once"
  | .missingPrecedence => "no attribute precedence was configured"
  | .unknownPrecedence n =>
    s!"precedence lists attribute '{n}' which is not registered with that type"
  | .duplicatePrecedence n => s!"precedence lists attribute '{n}' more than once"
  | .unorderedType a r =>
    s!"attribute '{a.name}' of type {a.type.text} has no ordering, but its {r.text} rule needs one"

namespace Registration

def name (r : Registration) : String := r.key.name

/-- A rule that needs an ordering although the attribute's type has none. -/
def orderingProblem? (r : Registration) : Option SchemaError :=
  if r.key.type.isOrdered then none
  else if r.compatibility.needsOrdering then some (.unorderedType r.key .compatibility)
  else if r.preference.needsOrdering then some (.unorderedType r.key .disambiguation)
  else none

end Registration

/-- The configuration phase of a schema. -/
structure SchemaDraft where
  registrations : List Registration := []
  /-- Must be set; the empty list is allowed and leaves every choice open. -/
  precedence : Option (List Attribute) := none

/-- A frozen schema. -/
structure Schema where
  registrations : SortedBy Registration.name
  precedence : List Attribute
  ordered : ∀ r ∈ registrations.toList, r.orderingProblem? = none
  registered : ∀ a ∈ precedence, ∃ r ∈ registrations.toList, r.key = a
  distinct : (precedence.map Attribute.name).Nodup

namespace SchemaDraft

/-- The first registration with a rule that its type does not support, or a name seen before. -/
def registrationProblem? (seen : List String) : List Registration → Option SchemaError
  | [] => none
  | r :: rs =>
    match r.orderingProblem? with
    | some e => some e
    | none =>
      if r.name ∈ seen then some (.duplicateAttribute r.name)
      else registrationProblem? (r.name :: seen) rs

/-- The first precedence entry that is not registered as such, or was listed before. -/
def precedenceProblem? (rs : List Registration) (seen : List String) :
    List Attribute → Option SchemaError
  | [] => none
  | a :: as =>
    if rs.all (fun r => r.key ≠ a) then some (.unknownPrecedence a.name)
    else if a.name ∈ seen then some (.duplicatePrecedence a.name)
    else precedenceProblem? rs (a.name :: seen) as

/-- The first violation of a draft. -/
def problem? (d : SchemaDraft) : Option SchemaError :=
  match registrationProblem? [] d.registrations, d.precedence with
  | some e, _ => some e
  | none, none => some .missingPrecedence
  | none, some as => precedenceProblem? d.registrations [] as

theorem registrationProblem?_eq_none {seen : List String} {rs : List Registration}
    (h : registrationProblem? seen rs = none) :
    (∀ r ∈ rs, r.orderingProblem? = none) ∧ (rs.map Registration.name).Nodup ∧
      ∀ r ∈ rs, r.name ∉ seen := by
  induction rs generalizing seen with
  | nil => simp
  | cons r rs ih =>
    rw [registrationProblem?] at h
    split at h
    · simp at h
    next ho =>
      split at h
      · simp at h
      next hn =>
        have ⟨h₁, h₂, h₃⟩ := ih h
        refine ⟨?_, ?_, ?_⟩
        · exact List.forall_mem_cons.mpr ⟨ho, h₁⟩
        · refine List.nodup_cons.mpr ⟨fun hm => ?_, h₂⟩
          have ⟨r', hr', he⟩ := List.mem_map.mp hm
          exact h₃ r' hr' (he ▸ List.mem_cons_self)
        · exact List.forall_mem_cons.mpr
            ⟨hn, fun r' hr' hm => h₃ r' hr' (List.mem_cons_of_mem _ hm)⟩

theorem precedenceProblem?_eq_none {rs : List Registration} {seen : List String}
    {as : List Attribute} (h : precedenceProblem? rs seen as = none) :
    (∀ a ∈ as, ∃ r ∈ rs, r.key = a) ∧ (as.map Attribute.name).Nodup ∧ ∀ a ∈ as, a.name ∉ seen := by
  induction as generalizing seen with
  | nil => simp
  | cons a as ih =>
    rw [precedenceProblem?] at h
    split at h
    · simp at h
    next hr =>
      split at h
      · simp at h
      next hn =>
        have ⟨h₁, h₂, h₃⟩ := ih h
        refine ⟨?_, ?_, ?_⟩
        · exact List.forall_mem_cons.mpr ⟨by simpa using hr, h₁⟩
        · refine List.nodup_cons.mpr ⟨fun hm => ?_, h₂⟩
          have ⟨a', ha', he⟩ := List.mem_map.mp hm
          exact h₃ a' ha' (he ▸ List.mem_cons_self)
        · exact List.forall_mem_cons.mpr
            ⟨hn, fun a' ha' hm => h₃ a' ha' (List.mem_cons_of_mem _ hm)⟩

/-- A draft without a problem has well-ordered, distinct registrations and a proper precedence. -/
theorem problem?_eq_none {d : SchemaDraft} (h : d.problem? = none) :
    (∀ r ∈ d.registrations, r.orderingProblem? = none) ∧
      (d.registrations.map Registration.name).Nodup ∧
      ∃ as, d.precedence = some as ∧ (∀ a ∈ as, ∃ r ∈ d.registrations, r.key = a) ∧
        (as.map Attribute.name).Nodup := by
  rw [problem?] at h
  split at h
  · simp at h
  · simp at h
  next as hr hp =>
    have ⟨h₁, h₂, _⟩ := registrationProblem?_eq_none hr
    have ⟨h₃, h₄, _⟩ := precedenceProblem?_eq_none h
    exact ⟨h₁, h₂, as, hp, h₃, h₄⟩

/-- Freeze a draft that has no problem. -/
def freeze (d : SchemaDraft) (h : d.problem? = none) : Schema where
  registrations := .ofList d.registrations
  precedence := d.precedence.getD []
  ordered r hr := (problem?_eq_none h).1 r (SortedBy.mem_of_mem_ofList hr)
  registered a ha := by
    have ⟨_, hd, as, hp, hr, _⟩ := problem?_eq_none h
    rw [hp] at ha
    have ⟨r, hm, he⟩ := hr a ha
    exact ⟨r, SortedBy.mem_ofList hd hm, he⟩
  distinct := by
    have ⟨_, _, as, hp, _, hd⟩ := problem?_eq_none h
    rw [hp]
    exact hd

/-- Check the draft and freeze it. -/
def build (d : SchemaDraft) : Except SchemaError Schema :=
  match h : d.problem? with
  | some e => throw e
  | none => return d.freeze h

end SchemaDraft

namespace Schema

/-- What is registered under a name. -/
def find? (s : Schema) (name : String) : Option Registration := s.registrations.find? name

/-- The registered attributes in increasing order of names. -/
def keys (s : Schema) : List Attribute := s.registrations.toList.map Registration.key

def isMandatory (s : Schema) (name : String) : Bool := (s.find? name).any Registration.mandatory

end Schema

end BuildInputs

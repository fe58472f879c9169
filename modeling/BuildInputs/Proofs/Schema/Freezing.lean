import BuildInputs.Proofs.Except
import BuildInputs.Proofs.Schema
import BuildInputs.Proofs.Text.ByteOrder

/-!
# What freezing a draft gives

A draft is valid or has violations, and both can be told from what was configured (`Valid`,
`Violates`). Freezing looks for violations one after the other and stops at the first one. What it
returns does not depend on how it looks:

1. A schema is frozen from a draft exactly when the draft is valid and the schema has what the draft
   registered (`build_eq_ok_iff_freezes`). There is one such schema (`Freezes.unique`).
2. An error names a violation that the draft has (`violates_of_build`).
3. Validity and the schema do not depend on the order of registrations (`build_eq_ok_iff_of_perm`).

The same is returned by two loops that fill a map of registrations while they check them and then
look up in it what the precedence lists (`buildInSteps_eq`). The map has every name that was seen,
which is all that the checks ask of it.
-/

namespace BuildInputs

open Digest

namespace SchemaDraft

/-- A draft that can be frozen. -/
structure Valid (d : SchemaDraft) : Prop where
  distinct : (d.registrations.map Registration.name).Nodup
  ordered : ∀ r ∈ d.registrations, r.key.type = .boolean →
    r.compatibility.needsOrdering = false ∧ r.preference.needsOrdering = false
  precedence : ∃ as, d.precedence = some as ∧ (∀ a ∈ as, ∃ r ∈ d.registrations, r.key = a) ∧
    (as.map Attribute.name).Nodup

/-- What an error says of a draft. -/
inductive Violates (d : SchemaDraft) : SchemaError → Prop
  | duplicateAttribute {name : String}
    (h : 2 ≤ (d.registrations.map Registration.name).count name) :
    Violates d (.duplicateAttribute name)
  | missingPrecedence (h : d.precedence = none) : Violates d .missingPrecedence
  | unknownPrecedence {as : List Attribute} {a : Attribute} (has : d.precedence = some as)
    (ha : a ∈ as) (h : ∀ r ∈ d.registrations, r.key ≠ a) : Violates d (.unknownPrecedence a.name)
  | duplicatePrecedence {as : List Attribute} {name : String} (has : d.precedence = some as)
    (h : 2 ≤ (as.map Attribute.name).count name) : Violates d (.duplicatePrecedence name)
  | unorderedCompatibility {r : Registration} (hr : r ∈ d.registrations)
    (htype : r.key.type = .boolean) (h : r.compatibility.needsOrdering = true) :
    Violates d (.unorderedType r.key .compatibility)
  | unorderedPreference {r : Registration} (hr : r ∈ d.registrations)
    (htype : r.key.type = .boolean) (h : r.preference.needsOrdering = true) :
    Violates d (.unorderedType r.key .disambiguation)

/-- The schema has what the draft registered, in byte order of names, and its precedence. -/
structure Freezes (d : SchemaDraft) (s : Schema) : Prop where
  keys_perm : s.keys.Perm (d.registrations.map Registration.key)
  keys_increasing : s.keys.Pairwise fun a b => utf8 a.name < utf8 b.name
  find?_iff : ∀ name r, s.find? name = some r ↔ r ∈ d.registrations ∧ r.name = name
  precedence_eq : d.precedence = some s.precedence

variable {d d' : SchemaDraft} {s t : Schema} {e : SchemaError} {rs : List Registration}
  {r : Registration} {as : List Attribute} {a : Attribute} {seen : List String}
  {found : SortedBy Registration.name}

/-! ## Drafts that can be frozen -/

theorem problem?_eq_none_iff_valid : d.problem? = none ↔ d.Valid := by
  rw [problem?_eq_none_iff]
  simp only [Registration.orderingProblem?_eq_none_iff]
  exact ⟨fun ⟨hordered, hdistinct, hprecedence⟩ => ⟨hdistinct, hordered, hprecedence⟩,
    fun h => ⟨h.ordered, h.distinct, h.precedence⟩⟩

theorem exists_build_iff_valid : (∃ s, d.build = .ok s) ↔ d.Valid :=
  exists_build_iff.trans problem?_eq_none_iff_valid

theorem freezes_of_build (h : d.build = .ok s) : d.Freezes s where
  keys_perm := keys_perm_of_build h
  keys_increasing := List.pairwise_map.mpr (s.registrations.sorted.imp utf8_lt_utf8)
  find?_iff name r := by
    unfold Schema.find?
    rw [SortedBy.find?_eq_some_iff, mem_registrations_of_build h]
  precedence_eq := precedence_of_build h

/-- **There is one schema at most that a draft freezes to.** -/
theorem Freezes.unique (hs : d.Freezes s) (ht : d.Freezes t) : s = t := by
  have hregistrations : s.registrations = t.registrations := by
    refine SortedBy.ext_find? fun name => ?_
    ext r
    exact (hs.find?_iff name r).trans (ht.find?_iff name r).symm
  have hprecedence : s.precedence = t.precedence :=
    Option.some.inj (hs.precedence_eq.symm.trans ht.precedence_eq)
  cases s
  cases t
  cases hregistrations
  cases hprecedence
  rfl

/-- **A draft is frozen when it is valid**, to the schema with what it registered. -/
theorem build_eq_ok_iff_freezes : d.build = .ok s ↔ d.Valid ∧ d.Freezes s := by
  constructor
  · intro h
    exact ⟨exists_build_iff_valid.mp ⟨s, h⟩, freezes_of_build h⟩
  · rintro ⟨hvalid, hs⟩
    obtain ⟨t, ht⟩ := exists_build_iff_valid.mpr hvalid
    rw [ht, (freezes_of_build ht).unique hs]

/-! ## The order of registrations -/

theorem Valid.of_perm (h : d.Valid) (hperm : d'.registrations.Perm d.registrations)
    (hprecedence : d'.precedence = d.precedence) : d'.Valid where
  distinct := (hperm.map Registration.name).nodup_iff.mpr h.distinct
  ordered r hr := h.ordered r (hperm.mem_iff.mp hr)
  precedence := by
    obtain ⟨as, has, hregistered, hnodup⟩ := h.precedence
    refine ⟨as, hprecedence.trans has, fun a ha => ?_, hnodup⟩
    obtain ⟨r, hr, hkey⟩ := hregistered a ha
    exact ⟨r, hperm.mem_iff.mpr hr, hkey⟩

theorem Freezes.of_perm (h : d.Freezes s) (hperm : d'.registrations.Perm d.registrations)
    (hprecedence : d'.precedence = d.precedence) : d'.Freezes s where
  keys_perm := h.keys_perm.trans (hperm.map Registration.key).symm
  keys_increasing := h.keys_increasing
  find?_iff name r := by rw [h.find?_iff, hperm.mem_iff]
  precedence_eq := hprecedence.trans h.precedence_eq

/-- **Registering in another order freezes the same schema**, or none again. -/
theorem build_eq_ok_iff_of_perm (hperm : d'.registrations.Perm d.registrations)
    (hprecedence : d'.precedence = d.precedence) : d'.build = .ok s ↔ d.build = .ok s := by
  rw [build_eq_ok_iff_freezes, build_eq_ok_iff_freezes]
  constructor
  · rintro ⟨hvalid, hs⟩
    exact ⟨hvalid.of_perm hperm.symm hprecedence.symm, hs.of_perm hperm.symm hprecedence.symm⟩
  · rintro ⟨hvalid, hs⟩
    exact ⟨hvalid.of_perm hperm hprecedence, hs.of_perm hperm hprecedence⟩

/-! ## Errors -/

theorem violates_of_orderingProblem? (hr : r ∈ d.registrations)
    (h : r.orderingProblem? = some e) : d.Violates e := by
  unfold Registration.orderingProblem? at h
  by_cases hordered : r.key.type.isOrdered = true
  · simp [hordered] at h
  have htype : r.key.type = .boolean := by
    cases hkey : r.key.type <;> simp [hkey, ValueType.isOrdered] at hordered ⊢
  rw [if_neg hordered] at h
  by_cases hcompatibility : r.compatibility.needsOrdering = true
  · rw [if_pos hcompatibility] at h
    exact Option.some.inj h ▸ .unorderedCompatibility hr htype hcompatibility
  · rw [if_neg hcompatibility] at h
    by_cases hpreference : r.preference.needsOrdering = true
    · rw [if_pos hpreference] at h
      exact Option.some.inj h ▸ .unorderedPreference hr htype hpreference
    · rw [if_neg hpreference] at h
      cases h

/-- A name that has been seen occurs twice when it comes again. -/
theorem two_le_count_append_cons {name : String} {names : List String} (h : name ∈ seen) :
    2 ≤ (seen ++ name :: names).count name := by
  have hseen : 1 ≤ seen.count name := List.one_le_count_iff.mpr h
  rw [List.count_append, List.count_cons_self]
  omega

theorem count_cons_append {name x : String} {names : List String} :
    (x :: seen ++ names).count name = (seen ++ x :: names).count name :=
  List.perm_middle.symm.count_eq name

/-- What the check of registrations reports is a rule without the order it needs, or a name that
occurs twice. -/
theorem of_registrationProblem?_eq_some (h : registrationProblem? seen rs = some e) :
    (∃ r ∈ rs, r.orderingProblem? = some e) ∨
      ∃ name, 2 ≤ (seen ++ rs.map Registration.name).count name ∧
        e = .duplicateAttribute name := by
  induction rs generalizing seen with
  | nil => cases h
  | cons r rs ih =>
    rw [registrationProblem?] at h
    cases hr : r.orderingProblem? with
    | some err =>
      rw [hr] at h
      exact Or.inl ⟨r, List.mem_cons_self, hr.trans h⟩
    | none =>
      simp only [hr] at h
      by_cases hseen : r.name ∈ seen
      · rw [if_pos hseen] at h
        exact Or.inr ⟨r.name, two_le_count_append_cons hseen, (Option.some.inj h).symm⟩
      · rw [if_neg hseen] at h
        rcases ih h with ⟨r', hr', he⟩ | ⟨name, hcount, he⟩
        · exact Or.inl ⟨r', List.mem_cons_of_mem _ hr', he⟩
        · exact Or.inr ⟨name, count_cons_append ▸ hcount, he⟩

/-- What the check of the precedence reports is not registered, or a name that occurs twice. -/
theorem of_precedenceProblem?_eq_some (h : precedenceProblem? rs seen as = some e) :
    (∃ a ∈ as, (∀ r ∈ rs, r.key ≠ a) ∧ e = .unknownPrecedence a.name) ∨
      ∃ name, 2 ≤ (seen ++ as.map Attribute.name).count name ∧ e = .duplicatePrecedence name := by
  induction as generalizing seen with
  | nil => cases h
  | cons a as ih =>
    rw [precedenceProblem?] at h
    by_cases hunknown : (rs.all fun r => r.key ≠ a) = true
    · rw [if_pos hunknown] at h
      refine Or.inl ⟨a, List.mem_cons_self, ?_, (Option.some.inj h).symm⟩
      simpa using hunknown
    · rw [if_neg hunknown] at h
      by_cases hseen : a.name ∈ seen
      · rw [if_pos hseen] at h
        exact Or.inr ⟨a.name, two_le_count_append_cons hseen, (Option.some.inj h).symm⟩
      · rw [if_neg hseen] at h
        rcases ih h with ⟨a', ha', hunknown, he⟩ | ⟨name, hcount, he⟩
        · exact Or.inl ⟨a', List.mem_cons_of_mem _ ha', hunknown, he⟩
        · exact Or.inr ⟨name, count_cons_append ▸ hcount, he⟩

theorem violates_of_problem? (h : d.problem? = some e) : d.Violates e := by
  unfold problem? at h
  cases hr : registrationProblem? [] d.registrations with
  | some err =>
    rw [hr] at h
    obtain rfl : err = e := Option.some.inj h
    rcases of_registrationProblem?_eq_some hr with ⟨r, hmem, he⟩ | ⟨name, hcount, rfl⟩
    · exact violates_of_orderingProblem? hmem he
    · exact .duplicateAttribute hcount
  | none =>
    rw [hr] at h
    cases has : d.precedence with
    | none =>
      rw [has] at h
      obtain rfl : .missingPrecedence = e := Option.some.inj h
      exact .missingPrecedence has
    | some as =>
      rw [has] at h
      rcases of_precedenceProblem?_eq_some h with ⟨a, ha, hunknown, rfl⟩ | ⟨name, hcount, rfl⟩
      · exact .unknownPrecedence has ha hunknown
      · exact .duplicatePrecedence has hcount

theorem build_eq_error_iff : d.build = .error e ↔ d.problem? = some e := by
  unfold build
  split
  · next err he =>
    rw [he]
    exact ⟨fun h => congrArg some (Except.error.inj h), fun h => congrArg _ (Option.some.inj h)⟩
  · next h => exact iff_of_false (fun hs => (by cases hs)) fun he => (by cases h ▸ he)

/-- **An error names a violation that the draft has.** -/
theorem violates_of_build (h : d.build = .error e) : d.Violates e :=
  violates_of_problem? (build_eq_error_iff.mp h)

/-! ## Step by step -/

/-- Put registrations into a map, unless one has an unsupported rule or a name that is taken. -/
def register (found : SortedBy Registration.name) :
    List Registration → Except SchemaError (SortedBy Registration.name)
  | [] => return found
  | r :: rs =>
    match r.orderingProblem? with
    | some e => throw e
    | none =>
      if (found.find? r.name).isSome then throw (.duplicateAttribute r.name)
      else register (found.insert r) rs

/-- Look up what a precedence lists. -/
def checkPrecedence (found : SortedBy Registration.name) (seen : List String) :
    List Attribute → Except SchemaError Unit
  | [] => return
  | a :: as => do
    if (found.find? a.name).any fun r => r.key = a then
      if a.name ∈ seen then throw (.duplicatePrecedence a.name)
      else checkPrecedence found (a.name :: seen) as
    else throw (.unknownPrecedence a.name)

/-- Fill a map with the registrations, then look up in it what the precedence lists. -/
def buildInSteps (d : SchemaDraft) :
    Except SchemaError (SortedBy Registration.name × List Attribute) := do
  let found ← register .empty d.registrations
  match d.precedence with
  | none => throw .missingPrecedence
  | some as =>
    checkPrecedence found [] as
    return (found, as)

theorem register_eq (hseen : ∀ name, name ∈ seen ↔ (found.find? name).isSome = true) :
    register found rs = match registrationProblem? seen rs with
      | some e => .error e
      | none => .ok (rs.foldl (fun s r => s.insert r) found) := by
  induction rs generalizing found seen with
  | nil => rfl
  | cons r rs ih =>
    rw [register, registrationProblem?]
    cases r.orderingProblem? with
    | some e => rfl
    | none =>
      by_cases hr : r.name ∈ seen
      · simp only [if_pos hr, if_pos ((hseen r.name).mp hr)]
        rfl
      · simp only [if_neg hr, if_neg (mt (hseen r.name).mpr hr)]
        refine ih fun name => ?_
        rw [SortedBy.find?_insert, List.mem_cons, hseen name]
        by_cases hname : r.name = name
        · simp [hname]
        · simp [hname, Ne.symm hname]

theorem checkPrecedence_eq
    (hfound : ∀ a, ((found.find? a.name).any fun r => r.key = a) = true ↔ ∃ r ∈ rs, r.key = a)
    (seen : List String) (as : List Attribute) :
    checkPrecedence found seen as = match precedenceProblem? rs seen as with
      | some e => .error e
      | none => .ok () := by
  induction as generalizing seen with
  | nil => rfl
  | cons a as ih =>
    have hunknown : (rs.all fun r => r.key ≠ a) = true ↔
        ¬ ((found.find? a.name).any fun r => r.key = a) = true := by
      rw [hfound a]
      simp
    rw [checkPrecedence, precedenceProblem?]
    by_cases ha : ((found.find? a.name).any fun r => r.key = a) = true
    · rw [if_pos ha, if_neg fun h => hunknown.mp h ha]
      by_cases hseen : a.name ∈ seen
      · rw [if_pos hseen, if_pos hseen]
        rfl
      · rw [if_neg hseen, if_neg hseen]
        exact ih (a.name :: seen)
    · rw [if_neg ha, if_pos (hunknown.mpr ha)]
      rfl

/-- Where names are distinct, an attribute is registered when it is found under its name. -/
theorem any_find?_ofList (hdistinct : (rs.map Registration.name).Nodup) (a : Attribute) :
    (((SortedBy.ofList rs : SortedBy Registration.name).find? a.name).any fun r => r.key = a) =
      true ↔ ∃ r ∈ rs, r.key = a := by
  rw [Option.any_eq_true]
  refine exists_congr fun r => ?_
  rw [SortedBy.find?_eq_some_iff, decide_eq_true_iff]
  constructor
  · rintro ⟨⟨hr, -⟩, hkey⟩
    exact ⟨SortedBy.mem_of_mem_ofList hr, hkey⟩
  · rintro ⟨hr, rfl⟩
    exact ⟨⟨SortedBy.mem_ofList hdistinct hr, rfl⟩, rfl⟩

/-- **Two loops over a map do the same as freezing.** -/
theorem buildInSteps_eq (d : SchemaDraft) :
    d.buildInSteps = d.build.map fun s => (s.registrations, s.precedence) := by
  have hfails {e : SchemaError} (h : d.problem? = some e) :
      d.build.map (fun s => (s.registrations, s.precedence)) = .error e := by
    rw [build_eq_error_iff.mpr h]
    rfl
  have hnothing (name : String) : name ∈ ([] : List String) ↔
      ((SortedBy.empty : SortedBy Registration.name).find? name).isSome = true := by
    simp [SortedBy.find?, SortedBy.empty]
  unfold buildInSteps
  rw [register_eq hnothing]
  cases hr : registrationProblem? [] d.registrations with
  | some e =>
    rw [hfails (by rw [problem?, hr])]
    rfl
  | none =>
    cases has : d.precedence with
    | none =>
      rw [hfails (by rw [problem?, hr, has])]
      rfl
    | some as =>
      have hproblem : d.problem? = precedenceProblem? d.registrations [] as := by
        rw [problem?, hr, has]
      have hdistinct : (d.registrations.map Registration.name).Nodup :=
        (registrationProblem?_eq_none hr).2.1
      show (checkPrecedence (.ofList d.registrations) [] as >>= fun _ => _) = _
      rw [checkPrecedence_eq (any_find?_ofList hdistinct), ← hproblem]
      cases hp : d.problem? with
      | some e =>
        rw [hfails hp]
        rfl
      | none =>
        rw [build_eq_ok_iff.mpr ⟨hp, rfl⟩]
        show Except.ok (SortedBy.ofList d.registrations, as) =
          .ok (SortedBy.ofList d.registrations, d.precedence.getD [])
        rw [has]
        rfl

/--
**Frozen schemas are valid, and registering in any order gives the same one.** A draft is frozen
exactly when it is valid, and the schema then has what was registered. An error names a violation
that the draft has. Drafts with the same registrations in another order, and the same precedence,
freeze to the same schema or not at all. Filling a map and looking up in it comes to the same.
-/
theorem build_laws (d : SchemaDraft) :
    ((∃ s, d.build = .ok s) ↔ d.Valid) ∧
      (∀ e, d.build = .error e → d.Violates e) ∧
      (∀ s, d.build = .ok s → d.Freezes s) ∧
      (∀ d' : SchemaDraft, d'.registrations.Perm d.registrations → d'.precedence = d.precedence →
        ∀ s, d'.build = .ok s ↔ d.build = .ok s) ∧
      d.buildInSteps = d.build.map fun s => (s.registrations, s.precedence) :=
  ⟨exists_build_iff_valid, fun _ => violates_of_build, fun _ => freezes_of_build,
    fun _ hperm hprecedence _ => build_eq_ok_iff_of_perm hperm hprecedence, buildInSteps_eq d⟩

def system : Registration := { key := ⟨"system", .string⟩ }

def level : Registration := { key := ⟨"level", .integer⟩, compatibility := .atMost }

def debug : Registration := { key := ⟨"debug", .boolean⟩, preference := .highest }

/-- Two attributes freeze to one schema in either order; a third one has a rule without the order
that it needs. -/
theorem build_laws_system_level :
    (∃ s, build ⟨[system, level], some [level.key]⟩ = .ok s ∧
      Freezes ⟨[system, level], some [level.key]⟩ s ∧
      build ⟨[level, system], some [level.key]⟩ = .ok s) ∧
    Violates ⟨[system, debug], none⟩ (.unorderedType debug.key .disambiguation) := by
  have hbuild : build ⟨[system, level], some [level.key]⟩ = .ok (freeze _ rfl) := rfl
  have hfail : build ⟨[system, debug], none⟩ =
      .error (.unorderedType debug.key .disambiguation) := rfl
  obtain ⟨-, -, hfreezes, hperm, -⟩ := build_laws ⟨[system, level], some [level.key]⟩
  obtain ⟨-, hviolates, -, -, -⟩ := build_laws ⟨[system, debug], none⟩
  have hswap : build ⟨[level, system], some [level.key]⟩ = .ok (freeze _ rfl) :=
    (hperm ⟨[level, system], some [level.key]⟩ (.swap _ _ _) rfl _).mpr hbuild
  exact ⟨⟨_, hbuild, hfreezes _ hbuild, hswap⟩, hviolates _ hfail⟩

end SchemaDraft

end BuildInputs

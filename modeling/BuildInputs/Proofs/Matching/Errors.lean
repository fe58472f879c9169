import BuildInputs.Proofs.Matching.Candidates

/-!
# Errors of a selection

A selection fails for two reasons only. Either the request names an attribute that the schema does
not know, or knows with another type (`Misuses`): the first such entry in the order of names
decides, and the candidates are not looked at (`checkRequest_eq_error_iff_firstMisuse`). Or a
candidate has a value of another type than the registered one, under a name that is requested or
decides between candidates (`Contradicts`, `Mistypes`). Where all values have the registered types
(`Conforms`), nothing of the second kind happens.

The error of a step is traced back to the look-up that raised it, from the look-up of one value
(`valueIn?_eq_error_iff`) up to the whole selection (`contradicts_of_select_eq_error`).
`select_errors` puts the two kinds together.
-/

namespace BuildInputs

namespace Registration

variable {r : Registration} {c : AttributeSet} {err : MatchError}

theorem checkType_eq_error_iff {found : ValueType} :
    r.checkType found = .error err ↔ r.key.type ≠ found ∧ err = .typeMismatch r.key found := by
  unfold checkType
  split
  · next h => exact ⟨fun he => (by cases he), fun he => absurd h he.1⟩
  · next h => exact ⟨fun he => ⟨h, (Except.error.inj he).symm⟩, fun he => congrArg _ he.2.symm⟩

/-- **Looking up a value fails when it has another type**, and then with both types. -/
theorem valueIn?_eq_error_iff : r.valueIn? c = .error err ↔
    ∃ e, c.entry? r.name = some e ∧ r.key.type ≠ e.value.type ∧
      err = .typeMismatch r.key e.value.type := by
  unfold valueIn?
  cases he : c.entry? r.name with
  | none =>
    constructor
    · intro h; cases h
    · rintro ⟨e, h, -⟩; cases h
  | some e =>
    show (r.checkType e.value.type >>= fun _ => pure (some e.value)) = .error err ↔ _
    rw [bind_eq_error]
    constructor
    · rintro (h | ⟨_, -, h⟩)
      · exact ⟨e, rfl, checkType_eq_error_iff.mp h⟩
      · cases h
    · rintro ⟨e', he', h⟩
      cases he'
      exact .inl (checkType_eq_error_iff.mpr h)

theorem Typed.valueIn?_ne_error (h : r.Typed c) : r.valueIn? c ≠ .error err := by
  rw [valueIn?_eq_ok_iff.mpr ⟨h, rfl⟩]
  exact fun he => (by cases he)

end Registration

namespace Schema

variable {s : Schema} {a : Attribute} {e : Entry} {es : List Entry} {c : AttributeSet}
  {err : MatchError}

theorem registrationOf_eq_error_iff : s.registrationOf a = .error err ↔
    s.find? a.name = none ∧ err = .unregistered a.name ∨
      ∃ r, s.find? a.name = some r ∧ r.key.type ≠ a.type ∧ err = .typeMismatch r.key a.type := by
  unfold registrationOf
  cases hfind : s.find? a.name with
  | none =>
    constructor
    · intro h; exact .inl ⟨rfl, (Except.error.inj h).symm⟩
    · rintro (⟨-, rfl⟩ | ⟨r, h, -⟩)
      · rfl
      · cases h
  | some r =>
    show (r.checkType a.type >>= fun _ => pure r) = .error err ↔ _
    rw [bind_eq_error]
    constructor
    · rintro (h | ⟨_, -, h⟩)
      · exact .inr ⟨r, rfl, Registration.checkType_eq_error_iff.mp h⟩
      · cases h
    · rintro (⟨h, -⟩ | ⟨r', hr', h⟩)
      · cases h
      · cases hr'
        exact .inl (Registration.checkType_eq_error_iff.mpr h)

theorem registrationOf_ne_ok {r : Registration} (h : s.find? a.name = none) :
    s.registrationOf a ≠ .ok r := by
  rw [registrationOf_eq_error_iff.mpr (.inl ⟨h, rfl⟩)]
  exact fun he => (by cases he)

/-! ## The request -/

theorem checkRequest_eq_ok_iff :
    s.checkRequest es = .ok () ↔ ∀ e ∈ es, ∃ r, s.registrationOf e.key = .ok r := by
  induction es with
  | nil => exact ⟨fun _ _ he => (by cases he), fun _ => rfl⟩
  | cons e es ih =>
    rw [checkRequest, bind_eq_ok, List.forall_mem_cons, ← ih]
    exact ⟨fun ⟨r, hr, h⟩ => ⟨⟨r, hr⟩, h⟩, fun ⟨⟨r, hr⟩, h⟩ => ⟨r, hr, h⟩⟩

/-- **The first entry that contradicts the schema decides.** -/
theorem checkRequest_eq_error_iff : s.checkRequest es = .error err ↔
    ∃ before e after, es = before ++ e :: after ∧ s.checkRequest before = .ok () ∧
      s.registrationOf e.key = .error err := by
  induction es with
  | nil =>
    constructor
    · intro h; cases h
    · rintro ⟨before, e, after, h, -⟩
      exact absurd h (by simp)
  | cons e es ih =>
    rw [checkRequest, bind_eq_error]
    constructor
    · rintro (h | ⟨r, hr, h⟩)
      · exact ⟨[], e, es, rfl, rfl, h⟩
      · obtain ⟨before, e', after, rfl, hbefore, h⟩ := ih.mp h
        exact ⟨e :: before, e', after, rfl, bind_eq_ok.mpr ⟨r, hr, hbefore⟩, h⟩
    · rintro ⟨before, e', after, hes, hbefore, h⟩
      cases before with
      | nil =>
        obtain ⟨rfl, rfl⟩ := List.cons.inj hes
        exact .inl h
      | cons x before =>
        obtain ⟨rfl, rfl⟩ := List.cons.inj hes
        obtain ⟨r, hr, hbefore⟩ := bind_eq_ok.mp hbefore
        exact .inr ⟨r, hr, ih.mpr ⟨before, e', after, rfl, hbefore, h⟩⟩

/-- How a use of an attribute contradicts the schema. -/
inductive Misuses (s : Schema) (a : Attribute) : MatchError → Prop
  /-- Nothing is registered under its name. -/
  | unregistered (h : ∀ r ∈ s.registrations.toList, r.name ≠ a.name) :
    Misuses s a (.unregistered a.name)
  /-- It is registered with another type. -/
  | typeMismatch {r : Registration} (hr : r ∈ s.registrations.toList) (hname : r.name = a.name)
    (htype : r.key.type ≠ a.type) : Misuses s a (.typeMismatch r.key a.type)

theorem registrationOf_eq_error_iff_misuses :
    s.registrationOf a = .error err ↔ s.Misuses a err := by
  rw [registrationOf_eq_error_iff]
  constructor
  · rintro (⟨hnone, rfl⟩ | ⟨r, hfind, htype, rfl⟩)
    · exact .unregistered (SortedBy.find?_eq_none_iff.mp hnone)
    · obtain ⟨hr, hname⟩ := SortedBy.find?_eq_some_iff.mp hfind
      exact .typeMismatch hr hname htype
  · rintro (hnone | ⟨hr, hname, htype⟩)
    · exact .inl ⟨SortedBy.find?_eq_none_iff.mpr hnone, rfl⟩
    · exact .inr ⟨_, SortedBy.find?_eq_some_iff.mpr ⟨hr, hname⟩, htype, rfl⟩

theorem checkRequest_eq_ok_iff_not_misuses :
    s.checkRequest es = .ok () ↔ ∀ e ∈ es, ∀ err, ¬ s.Misuses e.key err := by
  rw [checkRequest_eq_ok_iff]
  refine forall₂_congr fun e _ => ?_
  simp only [← registrationOf_eq_error_iff_misuses]
  cases s.registrationOf e.key <;> simp

/-- An entry misuses its attribute in this way, and none with a lesser name misuses its own. -/
structure FirstMisuse (s : Schema) (request : AttributeSet) (e : Entry) (err : MatchError) :
    Prop where
  mem : e ∈ request.entries
  misuses : s.Misuses e.key err
  first : ∀ e' ∈ request.entries, e'.name < e.name → ∀ err', ¬ s.Misuses e'.key err'

/-- **A request fails at the first misuse in the order of names.** -/
theorem checkRequest_eq_error_iff_firstMisuse {request : AttributeSet} :
    s.checkRequest request.entries = .error err ↔ ∃ e, s.FirstMisuse request e err := by
  rw [checkRequest_eq_error_iff]
  constructor
  · rintro ⟨before, e, after, hentries, hbefore, hfault⟩
    refine ⟨e, hentries ▸ List.mem_append_right _ List.mem_cons_self,
      registrationOf_eq_error_iff_misuses.mp hfault, fun e' he' hless => ?_⟩
    refine checkRequest_eq_ok_iff_not_misuses.mp hbefore e' ?_
    have hsorted := request.sorted
    rw [show request.toList = _ from hentries, List.pairwise_append, List.pairwise_cons] at hsorted
    rw [hentries, List.mem_append, List.mem_cons] at he'
    -- an entry with a lesser name is not the failing one, nor behind it
    rcases he' with he' | rfl | he'
    · exact he'
    · exact absurd hless (String.lt_irrefl _)
    · exact absurd (compareOfLessAndEq_eq_lt.mp (hsorted.2.1.1 e' he')) (String.lt_asymm hless)
  · rintro ⟨e, hmem, hmisuses, hfirst⟩
    obtain ⟨before, after, hentries⟩ := List.append_of_mem hmem
    refine ⟨before, e, after, hentries, checkRequest_eq_ok_iff_not_misuses.mpr fun e' he' => ?_,
      registrationOf_eq_error_iff_misuses.mpr hmisuses⟩
    have hsorted := request.sorted
    rw [show request.toList = _ from hentries, List.pairwise_append] at hsorted
    exact hfirst e' (hentries ▸ List.mem_append_left _ he')
      (compareOfLessAndEq_eq_lt.mp (hsorted.2.2 e' he' e List.mem_cons_self))

/-! ## The candidates -/

/--
A candidate has a value of another type than the registered one, under a name that is requested or
that decides between candidates.
-/
def Contradicts (s : Schema) (request c : AttributeSet) (err : MatchError) : Prop :=
  ∃ r ∈ s.registrations.toList, (r.key ∈ request.keys ∨ r.key ∈ s.precedence) ∧
    r.valueIn? c = .error err

/-- The entry of a candidate by which it contradicts the schema. -/
structure Mistypes (s : Schema) (request c : AttributeSet) (r : Registration) (e : Entry) :
    Prop where
  registered : r ∈ s.registrations.toList
  used : r.key ∈ request.keys ∨ r.key ∈ s.precedence
  mem : e ∈ c.entries
  name_eq : e.name = r.name
  type_ne : e.value.type ≠ r.key.type

theorem contradicts_iff_mistypes {request : AttributeSet} : s.Contradicts request c err ↔
    ∃ r e, s.Mistypes request c r e ∧ err = .typeMismatch r.key e.value.type := by
  constructor
  · rintro ⟨r, hr, hused, hfail⟩
    obtain ⟨e, hentry, htype, herr⟩ := Registration.valueIn?_eq_error_iff.mp hfail
    obtain ⟨hmem, hname⟩ := AttributeSet.entry?_eq_some_iff.mp hentry
    exact ⟨r, e, ⟨hr, hused, hmem, hname, htype.symm⟩, herr⟩
  · rintro ⟨r, e, h, herr⟩
    have hentry := AttributeSet.entry?_eq_some_iff.mpr ⟨h.mem, h.name_eq⟩
    exact ⟨r, h.registered, h.used,
      Registration.valueIn?_eq_error_iff.mpr ⟨e, hentry, h.type_ne.symm, herr⟩⟩

/-- Every value under a registered name has the registered type. -/
def Conforms (s : Schema) (c : AttributeSet) : Prop :=
  ∀ r ∈ s.registrations.toList, r.Typed c

theorem conforms_iff : s.Conforms c ↔ ∀ r ∈ s.registrations.toList, ∀ e ∈ c.entries,
    e.name = r.name → e.value.type = r.key.type := by
  refine forall₂_congr fun r _ => forall_congr' fun e => ?_
  rw [AttributeSet.entry?_eq_some_iff, and_imp]

instance (s : Schema) (c : AttributeSet) : Decidable (s.Conforms c) :=
  decidable_of_iff _ conforms_iff.symm

/-- A conforming candidate contradicts nothing. -/
theorem Conforms.not_contradicts (h : s.Conforms c) {request : AttributeSet} :
    ¬ s.Contradicts request c err := by
  rintro ⟨r, hr, -, hfail⟩
  exact (h r hr).valueIn?_ne_error hfail

/-- The matcher fails at an entry that cannot be looked up in the schema or in the candidate. -/
theorem exists_of_satisfies_eq_error (h : s.satisfies c es = .error err) :
    ∃ e ∈ es, s.registrationOf e.key = .error err ∨
      ∃ r, s.registrationOf e.key = .ok r ∧ r.valueIn? c = .error err := by
  induction es with
  | nil => cases h
  | cons e es ih =>
    rw [satisfies] at h
    rcases bind_eq_error.mp h with h | ⟨r, hr, h⟩
    · exact ⟨e, List.mem_cons_self, .inl h⟩
    rcases bind_eq_error.mp h with h | ⟨v, -, h⟩
    · exact ⟨e, List.mem_cons_self, .inr ⟨r, hr, h⟩⟩
    -- the value was looked up, so the error comes from the rest of the request
    have hrest : s.satisfies c es = .error err := by
      cases v <;> dsimp only at h <;> split at h
      all_goals first
        | exact h
        | cases h
    obtain ⟨e', he', hfail⟩ := ih hrest
    exact ⟨e', List.mem_cons_of_mem _ he', hfail⟩

section Select

variable {α : Type} {attributes : α → AttributeSet} {request : AttributeSet} {xs : List α}

theorem contradicts_of_isMatch_eq_error (hrequest : s.checkRequest request.entries = .ok ())
    (h : s.isMatch c request = .error err) : s.Contradicts request c err := by
  obtain ⟨e, he, h⟩ := exists_of_satisfies_eq_error h
  obtain ⟨r, hr⟩ := checkRequest_eq_ok_iff.mp hrequest e he
  obtain ⟨hmem, hkey⟩ := registrationOf_eq_ok_iff.mp hr
  refine ⟨r, hmem, .inl (hkey ▸ List.mem_map_of_mem he), ?_⟩
  rcases h with h | ⟨r', hr', h⟩
  · rw [hr] at h
    cases h
  · cases hr.symm.trans hr'
    exact h

theorem exists_of_compatible_eq_error (h : s.compatible attributes request xs = .error err) :
    ∃ x ∈ xs, s.isMatch (attributes x) request = .error err := by
  induction xs with
  | nil => cases h
  | cons x xs ih =>
    rw [compatible] at h
    rcases bind_eq_error.mp h with h | ⟨b, -, h⟩
    · exact ⟨x, List.mem_cons_self, h⟩
    rcases bind_eq_error.mp h with h | ⟨rest, -, h⟩
    · obtain ⟨y, hy, h⟩ := ih h
      exact ⟨y, List.mem_cons_of_mem _ hy, h⟩
    · cases h

/-- A round of an attribute that decides between candidates fails at the value of a candidate. -/
theorem exists_of_narrowBy_eq_error (ha : a ∈ s.precedence)
    (h : s.narrowBy attributes request a xs = .error err) :
    ∃ x ∈ xs, s.Contradicts request (attributes x) err := by
  obtain ⟨r, hr⟩ := exists_registrationOf ha
  obtain ⟨hmem, rfl⟩ := registrationOf_eq_ok_iff.mp hr
  unfold narrowBy at h
  rcases bind_eq_error.mp h with h | ⟨r', hr', h⟩
  · rw [hr] at h
    cases h
  cases hr.symm.trans hr'
  split at h
  · cases h
  rcases bind_eq_error.mp h with h | ⟨values, -, h⟩
  · obtain ⟨x, hx, values, h⟩ := exists_of_foldlM_eq_error h
    rcases bind_eq_error.mp h with h | ⟨v, -, h⟩
    · exact ⟨x, hx, r, hmem, .inr ha, h⟩
    · split at h <;> cases h
  -- once the values are collected nothing fails
  · split at h
    · cases h
    · dsimp only at h
      split at h <;> cases h

theorem exists_of_narrow_eq_error {as : List Attribute} (has : ∀ a ∈ as, a ∈ s.precedence)
    (h : s.narrow attributes request as xs = .error err) :
    ∃ x ∈ xs, s.Contradicts request (attributes x) err := by
  induction as generalizing xs with
  | nil => cases h
  | cons a as ih =>
    have ⟨ha, has⟩ := List.forall_mem_cons.mp has
    rw [narrow] at h
    split at h
    · cases h
    rcases bind_eq_error.mp h with h | ⟨next, hnext, h⟩
    · exact exists_of_narrowBy_eq_error ha h
    · -- a later round fails at a candidate that this round left
      obtain ⟨r, hr⟩ := exists_registrationOf ha
      obtain ⟨-, rfl⟩ := (narrowBy_eq_ok_iff hr).mp hnext
      obtain ⟨x, hx, h⟩ := ih has h
      exact ⟨x, List.mem_of_mem_filter hx, h⟩

theorem Contradicts.ne_unregistered {name : String} (h : s.Contradicts request c err) :
    err ≠ .unregistered name := by
  obtain ⟨r, -, -, h⟩ := h
  obtain ⟨e, -, -, rfl⟩ := Registration.valueIn?_eq_error_iff.mp h
  exact fun he => (by cases he)

/-! ## The selection -/

/-- A request that contradicts the schema is an error, whatever the candidates are. -/
theorem select_eq_error_of_checkRequest (h : s.checkRequest request.entries = .error err) :
    s.select attributes xs request = .error err :=
  bind_eq_error.mpr (.inl h)

/-- **Any other error is that of a candidate.** -/
theorem contradicts_of_select_eq_error (hrequest : s.checkRequest request.entries = .ok ())
    (h : s.select attributes xs request = .error err) :
    ∃ x ∈ xs, s.Contradicts request (attributes x) err := by
  unfold select at h
  rcases bind_eq_error.mp h with h | ⟨_, -, h⟩
  · rw [hrequest] at h
    cases h
  rcases bind_eq_error.mp h with h | ⟨matching, hmatching, h⟩
  · obtain ⟨x, hx, h⟩ := exists_of_compatible_eq_error h
    exact ⟨x, hx, contradicts_of_isMatch_eq_error hrequest h⟩
  obtain ⟨-, rfl⟩ := compatible_eq_ok_iff.mp hmatching
  split at h
  · cases h
  · obtain ⟨x, hx, h⟩ := exists_of_narrow_eq_error (fun _ ha => ha) h
    exact ⟨x, (mem_matching.mp hx).1, h⟩

/-- Only the request can name an attribute that is not registered. -/
theorem select_eq_unregistered_iff {name : String} :
    s.select attributes xs request = .error (.unregistered name) ↔
      s.checkRequest request.entries = .error (.unregistered name) := by
  refine ⟨fun h => ?_, select_eq_error_of_checkRequest⟩
  cases hrequest : s.checkRequest request.entries with
  | error err =>
    rw [select_eq_error_of_checkRequest hrequest] at h
    exact congrArg _ (Except.error.inj h)
  | ok _ =>
    obtain ⟨x, -, hx⟩ := contradicts_of_select_eq_error hrequest h
    exact absurd rfl hx.ne_unregistered

/-- Without a contradiction a selection returns. -/
theorem exists_select_eq_ok_of_not_contradicts
    (hrequest : s.checkRequest request.entries = .ok ())
    (h : ∀ x ∈ xs, ∀ err, ¬ s.Contradicts request (attributes x) err) :
    ∃ us, s.select attributes xs request = .ok us := by
  cases hselect : s.select attributes xs request with
  | ok us => exact ⟨us, rfl⟩
  | error err =>
    obtain ⟨x, hx, hcontra⟩ := contradicts_of_select_eq_error hrequest hselect
    exact absurd hcontra (h x hx err)

/-- **Conforming candidates are selected without an error**, once the request has none. -/
theorem exists_select_eq_ok (hrequest : s.checkRequest request.entries = .ok ())
    (hconforms : ∀ x ∈ xs, s.Conforms (attributes x)) :
    ∃ us, s.select attributes xs request = .ok us :=
  exists_select_eq_ok_of_not_contradicts hrequest fun x hx _ => (hconforms x hx).not_contradicts

/-- No selection has an error about the building of an attribute set. -/
theorem select_ne_value {cause : AttributeError} :
    s.select attributes xs request ≠ .error (.value cause) := by
  intro h
  cases hrequest : s.checkRequest request.entries with
  | error err =>
    cases (select_eq_error_of_checkRequest hrequest).symm.trans h
    obtain ⟨e, hfirst⟩ := checkRequest_eq_error_iff_firstMisuse.mp hrequest
    cases hfirst.misuses
  | ok _ =>
    obtain ⟨x, -, hcontra⟩ := contradicts_of_select_eq_error hrequest h
    obtain ⟨r, e, -, herr⟩ := contradicts_iff_mistypes.mp hcontra
    cases herr

end Select

/--
**The errors of a selection are those of the configuration.** A request that misuses an attribute
fails at the first one that it misuses, whatever the candidates are. Any other request fails only by
an entry of a candidate that has another type than an attribute which is requested or decides
between candidates; without such an entry the selection returns. No selection fails with an error of
another kind.
-/
theorem select_errors {α : Type} (s : Schema) (attributes : α → AttributeSet)
    (request : AttributeSet) :
    ((∃ e ∈ request.entries, ∃ err, s.Misuses e.key err) →
      ∃ e err, s.FirstMisuse request e err ∧
        ∀ xs : List α, s.select attributes xs request = .error err) ∧
    ((∀ e ∈ request.entries, ∀ err, ¬ s.Misuses e.key err) →
      ∀ xs : List α,
        (∀ err, s.select attributes xs request = .error err →
          ∃ x ∈ xs, ∃ r e, s.Mistypes request (attributes x) r e ∧
            err = .typeMismatch r.key e.value.type) ∧
        ((∀ x ∈ xs, ∀ r e, ¬ s.Mistypes request (attributes x) r e) →
          ∃ us, s.select attributes xs request = .ok us)) ∧
    ∀ (xs : List α) (cause : AttributeError),
      s.select attributes xs request ≠ .error (.value cause) := by
  refine ⟨?_, fun hnone xs => ⟨fun err h => ?_, fun htyped => ?_⟩, fun xs cause => select_ne_value⟩
  · rintro ⟨e, he, err, hmisuse⟩
    cases hrequest : s.checkRequest request.entries with
    | ok _ => exact absurd hmisuse (checkRequest_eq_ok_iff_not_misuses.mp hrequest e he err)
    | error err =>
      obtain ⟨e, hfirst⟩ := checkRequest_eq_error_iff_firstMisuse.mp hrequest
      exact ⟨e, err, hfirst, fun xs => select_eq_error_of_checkRequest hrequest⟩
  · have hrequest := checkRequest_eq_ok_iff_not_misuses.mpr hnone
    obtain ⟨x, hx, hcontra⟩ := contradicts_of_select_eq_error hrequest h
    exact ⟨x, hx, contradicts_iff_mistypes.mp hcontra⟩
  · have hrequest := checkRequest_eq_ok_iff_not_misuses.mpr hnone
    refine exists_select_eq_ok_of_not_contradicts hrequest fun x hx err hcontra => ?_
    obtain ⟨r, e, hmistypes, -⟩ := contradicts_iff_mistypes.mp hcontra
    exact htyped x hx r e hmistypes

/-- A set with a switch in the place of a level, and an attribute that is not registered. -/
def switchInZone : AttributeSet := .ofList [⟨"level", .boolean true⟩, ⟨"zone", .string "a"⟩]

/-- As a request the set fails at its level; as a candidate it does, and without it nothing does. -/
theorem select_errors_switchInZone :
    (∃ e err, levelSchema.FirstMisuse switchInZone e err ∧
      ∀ xs : List AttributeSet, levelSchema.select id xs switchInZone = .error err) ∧
    (∃ x ∈ [ofLevel 11, switchInZone], ∃ r e, levelSchema.Mistypes (ofLevel 18) x r e ∧
      MatchError.typeMismatch ⟨"level", .integer⟩ .boolean = .typeMismatch r.key e.value.type) ∧
    ∃ us, levelSchema.select id [ofLevel 11, ofLevel 17] (ofLevel 18) = .ok us := by
  have hmisuse : levelSchema.Misuses ⟨"level", .boolean⟩
      (.typeMismatch ⟨"level", .integer⟩ .boolean) :=
    registrationOf_eq_error_iff_misuses.mp rfl
  have hnone : ∀ e ∈ (ofLevel 18).entries, ∀ err, ¬ levelSchema.Misuses e.key err :=
    checkRequest_eq_ok_iff_not_misuses.mp rfl
  have hconforms : ∀ x ∈ [ofLevel 11, ofLevel 17], levelSchema.Conforms x := by decide
  refine ⟨(select_errors levelSchema id switchInZone).1
      ⟨⟨"level", .boolean true⟩, by decide, _, hmisuse⟩,
    ((select_errors levelSchema id (ofLevel 18)).2.1 hnone _).1 _ rfl,
    ((select_errors levelSchema id (ofLevel 18)).2.1 hnone _).2 fun x hx r e h => ?_⟩
  exact h.type_ne (conforms_iff.mp (hconforms x hx) r h.registered e h.mem h.name_eq)

end Schema

end BuildInputs

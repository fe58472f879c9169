import BuildInputs.Proofs.Matching.Candidates
import BuildInputs.Proofs.Matching.Errors
import BuildInputs.Proofs.Matching.Explanation

/-!
# A single candidate

A candidate can be matched alone (`isMatch`) or as the only one of a list (`select`). The two look
at the request in different orders: a selection checks the whole request before it looks at a
candidate, while the matcher checks one entry, compares it, and stops at the first one that does not
fit. So they can differ where the request contradicts the schema, and there the matcher says less.

1. The matcher reaches an entry when the candidate satisfies those before it (`satisfies_append`).
2. A request without a contradiction has one verdict (`select_singleton`).
3. At a contradiction the matcher fails with the error of the selection only if it gets so far
   (`isMatch_of_contradictedAfter`): an earlier error is about another attribute
   (`satisfies_ne_error`).

`select_singleton_eq_iff` puts this together.
-/

namespace BuildInputs.Schema

variable {α : Type} {s : Schema} {f : α → AttributeSet} {x : α} {c request : AttributeSet}
  {es before : List Entry} {err : MatchError}

/-- What is left of a list of one candidate, given the verdict on it. -/
def leftBy (verdict : Except MatchError Bool) (x : α) : Except MatchError (List α) :=
  verdict.map fun ok => if ok then [x] else []

/-! ## The matcher on a part of a request -/

theorem satisfies_cons {e : Entry} {r : Registration} (hr : s.registrationOf e.key = .ok r)
    (ht : r.Typed c) : s.satisfies c (e :: es) =
      if r.fits c e.value then s.satisfies c es else .ok false := by
  rw [satisfies, hr]
  show (r.valueIn? c >>= _) = _
  rw [Registration.valueIn?_eq_ok_iff.mpr ⟨ht, rfl⟩]
  rfl

/-- **Entries are reached when the candidate satisfies those before them.** -/
theorem satisfies_append (es fs : List Entry) : s.satisfies c (es ++ fs) =
    s.satisfies c es >>= fun ok => if ok then s.satisfies c fs else .ok false := by
  induction es with
  | nil => rfl
  | cons e es ih =>
    rw [List.cons_append]
    cases hr : s.registrationOf e.key with
    | error err =>
      rw [satisfies, satisfies, hr]
      rfl
    | ok r =>
      cases hv : r.valueIn? c with
      | error err =>
        rw [satisfies, satisfies, hr]
        show (r.valueIn? c >>= _) = ((r.valueIn? c >>= _) >>= _)
        rw [hv]
        rfl
      | ok v =>
        have ht : r.Typed c := (Registration.valueIn?_eq_ok_iff.mp hv).1
        rw [satisfies_cons hr ht, satisfies_cons hr ht]
        by_cases hfits : r.fits c e.value = true
        · rw [if_pos hfits, if_pos hfits, ih]
        · -- neither of the two looks further
          rw [if_neg hfits, if_neg hfits]
          rfl

/-- The request contradicts the schema, for the first time after the entries `before`. -/
def ContradictedAfter (s : Schema) (request : AttributeSet) (before : List Entry)
    (err : MatchError) : Prop :=
  ∃ e after, request.entries = before ++ e :: after ∧ s.checkRequest before = .ok () ∧
    s.registrationOf e.key = .error err

theorem checkRequest_eq_error_iff_contradictedAfter :
    s.checkRequest request.entries = .error err ↔
      ∃ before, s.ContradictedAfter request before err :=
  checkRequest_eq_error_iff

/-- The matcher fails at a contradiction, unless it stopped before. -/
theorem isMatch_of_contradictedAfter (h : s.ContradictedAfter request before err) :
    s.isMatch c request =
      s.satisfies c before >>= fun ok => if ok then .error err else .ok false := by
  obtain ⟨e, after, hentries, -, hfault⟩ := h
  have hfail : s.satisfies c (e :: after) = .error err := by
    rw [satisfies, hfault]
    rfl
  unfold isMatch
  rw [hentries, satisfies_append, hfail]

/-- **An error before the contradiction is another one**: it names another attribute. -/
theorem satisfies_ne_error (h : s.ContradictedAfter request before err) :
    s.satisfies c before ≠ .error err := by
  obtain ⟨e, after, hentries, hbefore, hfault⟩ := h
  intro hfail
  obtain ⟨e', he', hfail⟩ := exists_of_satisfies_eq_error hfail
  obtain ⟨r, hr⟩ := checkRequest_eq_ok_iff.mp hbefore e' he'
  rcases hfail with hfail | ⟨r', hr', hfail⟩
  · rw [hr] at hfail
    cases hfail
  obtain rfl : r = r' := Except.ok.inj (hr.symm.trans hr')
  obtain ⟨found, -, -, rfl⟩ := Registration.valueIn?_eq_error_iff.mp hfail
  rcases registrationOf_eq_error_iff.mp hfault with ⟨-, herr⟩ | ⟨r', hfind, -, herr⟩
  · cases herr
  · -- both errors are about one registration, so the two entries have one name
    have hkey : r.key = r'.key := (MatchError.typeMismatch.inj herr).1
    have hname : r'.key.name = e.name := (SortedBy.find?_eq_some_iff.mp hfind).2
    have hname' : r.key.name = e'.name := congrArg Attribute.name (registrationOf_eq_ok_iff.mp hr).2
    have hnodup : (request.entries.map Entry.name).Nodup := SortedBy.nodup_map_key request
    rw [hentries, List.map_append, List.map_cons, List.nodup_append] at hnodup
    refine hnodup.2.2 e'.name (List.mem_map_of_mem he') e.name List.mem_cons_self ?_
    rw [← hname', hkey, hname]

/-! ## The selection from one candidate -/

/-- A request without a contradiction has one verdict. -/
theorem select_singleton (h : s.checkRequest request.entries = .ok ()) :
    s.select f [x] request = leftBy (s.isMatch (f x) request) x := by
  unfold select leftBy
  rw [h, compatible, compatible]
  cases s.isMatch (f x) request with
  | error err => rfl
  | ok b => cases b <;> rfl

/--
**A selection from one candidate agrees with the matcher** unless the request contradicts the schema
and the matcher stops before it gets there: at an entry that the candidate does not satisfy, or at a
value of another type in it.
-/
theorem select_singleton_eq_iff (s : Schema) (f : α → AttributeSet) (x : α)
    (request : AttributeSet) :
    s.select f [x] request = leftBy (s.isMatch (f x) request) x ↔
      ∀ before err, s.ContradictedAfter request before err →
        s.satisfies (f x) before = .ok true := by
  constructor
  · intro h before err hafter
    have hselect : s.select f [x] request = .error err :=
      select_eq_error_of_checkRequest
        (checkRequest_eq_error_iff_contradictedAfter.mpr ⟨before, hafter⟩)
    rw [hselect, isMatch_of_contradictedAfter hafter] at h
    cases hbefore : s.satisfies (f x) before with
    | error err' =>
      rw [hbefore] at h
      have herr : err = err' := Except.error.inj h
      exact absurd (herr ▸ hbefore) (satisfies_ne_error hafter)
    | ok b =>
      cases b with
      | true => rfl
      | false =>
        rw [hbefore] at h
        cases h
  · intro h
    cases hrequest : s.checkRequest request.entries with
    | ok u => exact select_singleton hrequest
    | error err =>
      obtain ⟨before, hafter⟩ := checkRequest_eq_error_iff_contradictedAfter.mp hrequest
      rw [select_eq_error_of_checkRequest hrequest, isMatch_of_contradictedAfter hafter,
        h before err hafter]
      rfl

/-- A request for a level, and for an attribute that is not registered. -/
def levelInZone : AttributeSet := ⟨[⟨"level", .integer 11⟩, ⟨"zone", .string "a"⟩], by decide⟩

/-- The level does not fit, so the matcher never finds out about the zone. -/
theorem select_singleton_ne_levelInZone :
    levelSchema.isMatch (ofLevel 17) levelInZone = .ok false ∧
      levelSchema.select id [ofLevel 17] levelInZone = .error (.unregistered "zone") ∧
      levelSchema.select id [ofLevel 17] levelInZone ≠
        leftBy (levelSchema.isMatch (ofLevel 17) levelInZone) (ofLevel 17) := by
  have hmatch : levelSchema.isMatch (ofLevel 17) levelInZone = .ok false := by rfl
  have hselect : levelSchema.select id [ofLevel 17] levelInZone =
      .error (.unregistered "zone") := by rfl
  refine ⟨hmatch, hselect, ?_⟩
  rw [hmatch, hselect]
  exact fun h => (by cases h)

end BuildInputs.Schema

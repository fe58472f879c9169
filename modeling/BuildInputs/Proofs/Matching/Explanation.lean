import BuildInputs.Proofs.Matching.Candidates

/-!
# Explanations agree with decisions

The matcher goes through the requested entries and stops at the first one that a candidate does not
satisfy; the explanation goes through all of them and never fails. Where the types are those of the
schema, both look at the same thing: whether the value of the candidate, or its absence, fits
(`Registration.fits`).

* `satisfies_cons_eq_ok_iff` : one step of the matcher.
* `satisfies_eq_ok_true_iff` : when the matcher accepts.
* `report_isMatch` : one entry of the explanation.
* `exists_isMatch_eq_false`, `isMatch_eq_true` : what an explanation says of a candidate that the
  matcher turned down, or let pass.

Where the types are others, the matcher fails, and the explanation finds a mismatch unless it
overlooks the type (`report_isMatch_of_conflicts`): an attribute that the candidate lacks and may
lack is reported to agree, whatever the type of the requested value is. Up to that, an explanation
tells the verdict (`isMatch_iff_explain`).
-/

namespace BuildInputs

/-- A candidate has an acceptable value of the attribute, or may lack it. -/
def Registration.fits (r : Registration) (c : AttributeSet) (requested : Value) : Bool :=
  match c.get? r.key with
  | none => !r.mandatory
  | some v => r.compatibility.accepts v requested

namespace Schema

variable {s : Schema} {c : AttributeSet} {e : Entry} {es : List Entry} {r : Registration} {b : Bool}

/-- **One step of the matcher** looks whether the candidate fits, and stops if it does not. -/
theorem satisfies_cons_eq_ok_iff : s.satisfies c (e :: es) = .ok b ↔
    ∃ r, s.registrationOf e.key = .ok r ∧ r.Typed c ∧
      if r.fits c e.value then s.satisfies c es = .ok b else b = false := by
  have hstep (r : Registration) :
      (if (match c.get? r.key with
        | none => !r.mandatory
        | some v => r.compatibility.accepts v e.value) then s.satisfies c es
        else return false) = .ok b ↔
      if r.fits c e.value then s.satisfies c es = .ok b else b = false := by
    show (if r.fits c e.value then s.satisfies c es else .ok false) = .ok b ↔ _
    split
    · exact Iff.rfl
    · exact ⟨fun h => (Except.ok.inj h).symm, fun h => congrArg _ h.symm⟩
  rw [satisfies, bind_eq_ok]
  refine exists_congr fun r => and_congr_right fun _ => ?_
  rw [bind_eq_ok]
  constructor
  · rintro ⟨v, hv, h⟩
    obtain ⟨htyped, rfl⟩ := Registration.valueIn?_eq_ok_iff.mp hv
    exact ⟨htyped, (hstep r).mp h⟩
  · rintro ⟨htyped, h⟩
    exact ⟨_, Registration.valueIn?_eq_ok_iff.mpr ⟨htyped, rfl⟩, (hstep r).mpr h⟩

/-- **A report tells whether the candidate fits**, once the matcher does not object to the types. -/
theorem report_isMatch (hr : s.registrationOf e.key = .ok r) (ht : r.Typed c) :
    (s.report c e).isMatch = r.fits c e.value := by
  obtain ⟨hmem, hkey⟩ := registrationOf_eq_ok_iff.mp hr
  have hname : r.name = e.name := congrArg Attribute.name hkey
  have hfind : s.find? e.name = some r := SortedBy.find?_eq_some_iff.mpr ⟨hmem, hname⟩
  unfold report Registration.fits AttributeSet.get?
  have hentry : c.entry? r.key.name = c.entry? e.name := congrArg c.entry? hname
  rw [hfind, hentry]
  cases hfound : c.entry? e.name with
  | none => rfl
  | some found =>
    -- the value that is found has the registered type
    have hfoundKey : found.key = r.key := by
      have hfoundName := (AttributeSet.entry?_eq_some_iff.mp hfound).2
      have hfoundType := ht found (hname ▸ hfound)
      show Attribute.mk found.name found.value.type = r.key
      rw [hfoundName, hfoundType, ← hname]
      rfl
    rw [Option.filter_some, if_pos (decide_eq_true hfoundKey)]
    simp [hfoundKey, hkey]

/-- A candidate that was turned down has a report that says why. -/
theorem exists_report_of_satisfies (h : s.satisfies c es = .ok false) :
    ∃ e ∈ es, (s.report c e).isMatch = false := by
  induction es with
  | nil => cases h
  | cons e es ih =>
    obtain ⟨r, hr, ht, h⟩ := satisfies_cons_eq_ok_iff.mp h
    split at h
    · obtain ⟨e', he', hreport⟩ := ih h
      exact ⟨e', List.mem_cons_of_mem _ he', hreport⟩
    · next hfits =>
      exact ⟨e, List.mem_cons_self, (report_isMatch hr ht).trans (Bool.eq_false_iff.mpr hfits)⟩

/-- **The matcher accepts** when every entry is registered with its type and the candidate fits. -/
theorem satisfies_eq_ok_true_iff : s.satisfies c es = .ok true ↔
    ∀ e ∈ es, ∃ r, s.registrationOf e.key = .ok r ∧ r.Typed c ∧ r.fits c e.value = true := by
  induction es with
  | nil => exact ⟨fun _ _ he => (by cases he), fun _ => rfl⟩
  | cons e es ih =>
    rw [satisfies_cons_eq_ok_iff, List.forall_mem_cons, ← ih]
    constructor
    · rintro ⟨r, hr, ht, h⟩
      split at h
      · next hfits => exact ⟨⟨r, hr, ht, hfits⟩, h⟩
      · cases h
    · rintro ⟨⟨r, hr, ht, hfits⟩, h⟩
      exact ⟨r, hr, ht, by rwa [if_pos hfits]⟩

/-- A candidate that was let pass has only reports that agree. -/
theorem report_of_satisfies (h : s.satisfies c es = .ok true) :
    ∀ e ∈ es, (s.report c e).isMatch = true := by
  intro e he
  obtain ⟨r, hr, ht, hfits⟩ := satisfies_eq_ok_true_iff.mp h e he
  exact (report_isMatch hr ht).trans hfits

variable {requested : AttributeSet}

/-- **A mismatch is explained.** -/
theorem exists_isMatch_eq_false (h : s.isMatch c requested = .ok false) :
    ∃ d ∈ s.explain c requested, d.isMatch = false := by
  obtain ⟨e, he, hreport⟩ := exists_report_of_satisfies h
  exact ⟨_, List.mem_map_of_mem he, hreport⟩

/-- **The explanation of a match finds no fault.** -/
theorem isMatch_eq_true (h : s.isMatch c requested = .ok true) :
    ∀ d ∈ s.explain c requested, d.isMatch = true := by
  intro d hd
  obtain ⟨e, he, rfl⟩ := List.mem_map.mp hd
  exact report_of_satisfies h e he

/-- **A candidate that matches has only accepted values** under the requested names. -/
theorem accepts_of_isMatch (h : s.isMatch c requested = .ok true) (he : e ∈ requested.entries)
    {found : Entry} (hfound : found ∈ c.entries) (hname : found.name = e.name) :
    ∃ r, s.registrationOf e.key = .ok r ∧ found.value.type = r.key.type ∧
      r.compatibility.accepts found.value e.value = true := by
  obtain ⟨r, hr, htyped, hfits⟩ := satisfies_eq_ok_true_iff.mp h e he
  have hkeyName : r.key.name = found.name :=
    (congrArg Attribute.name (registrationOf_eq_ok_iff.mp hr).2).trans hname.symm
  have htype : found.value.type = r.key.type :=
    htyped found (AttributeSet.entry?_eq_some_iff.mpr ⟨hfound, hkeyName.symm⟩)
  have hget : c.get? r.key = some found.value :=
    AttributeSet.get?_eq_some_iff.mpr ⟨hkeyName ▸ hfound, htype⟩
  refine ⟨r, hr, htype, ?_⟩
  unfold Registration.fits at hfits
  rwa [hget] at hfits

theorem map_requested_explain : (s.explain c requested).map MatchReport.requested =
    requested.entries := by
  unfold explain
  rw [List.map_map]
  exact List.map_id _

/-! ## What an explanation overlooks -/

/-- A value of the request or of the candidate has another type than the registered one. -/
def Conflicts (s : Schema) (c : AttributeSet) (e : Entry) : Prop :=
  ∃ r ∈ s.find? e.name, r.key.type ≠ e.value.type ∨ ¬ r.Typed c

/--
The type of a requested value is not looked at when the candidate lacks the attribute and may lack
it.
-/
def Overlooks (s : Schema) (c : AttributeSet) (e : Entry) : Prop :=
  c.entry? e.name = none ∧
    ∃ r ∈ s.find? e.name, r.mandatory = false ∧ r.key.type ≠ e.value.type

instance (s : Schema) (c : AttributeSet) (e : Entry) : Decidable (s.Overlooks c e) :=
  inferInstanceAs (Decidable (_ ∧ _))

/-- **A report passes over a conflict of types only if it overlooks it.** -/
theorem report_isMatch_of_conflicts (h : s.Conflicts c e) :
    (s.report c e).isMatch = true ↔ s.Overlooks c e := by
  obtain ⟨r, hfind, h⟩ := h
  have hname : r.name = e.name := (SortedBy.find?_eq_some_iff.mp hfind).2
  unfold report Overlooks
  rw [hfind]
  cases hfound : c.entry? e.name with
  | none =>
    -- the candidate has no value, so the conflict is that of the request
    have htyped : r.Typed c := fun f hf => by
      rw [hname, hfound] at hf
      cases hf
    have htype : r.key.type ≠ e.value.type := h.resolve_right fun hnot => hnot htyped
    show (!r.mandatory) = true ↔ _
    rw [Bool.not_eq_true']
    constructor
    · intro hoptional
      exact ⟨rfl, r, rfl, hoptional, htype⟩
    · rintro ⟨-, r', hr', hoptional, -⟩
      cases hr'
      exact hoptional
  | some found =>
    refine iff_of_false (fun hmatch => ?_) fun hlack => (by cases hlack.1)
    simp only [Bool.and_eq_true, decide_eq_true_eq] at hmatch
    obtain ⟨⟨hfoundKey, hkey⟩, -⟩ := hmatch
    rcases h with htype | htyped
    · exact htype (congrArg Attribute.type hkey).symm
    · refine htyped fun f hf => ?_
      rw [hname, hfound] at hf
      cases hf
      exact congrArg Attribute.type hfoundKey

/-- A report tells what the matcher finds at its entry, unless it overlooks the type. -/
theorem exists_fits_iff (hfind : s.find? e.name = some r) :
    (∃ r, s.registrationOf e.key = .ok r ∧ r.Typed c ∧ r.fits c e.value = true) ↔
      (s.report c e).isMatch = true ∧ ¬ s.Overlooks c e := by
  obtain ⟨hmem, hname⟩ := SortedBy.find?_eq_some_iff.mp hfind
  constructor
  · rintro ⟨r', hr', htyped, hfits⟩
    refine ⟨(report_isMatch hr' htyped).trans hfits, ?_⟩
    rintro ⟨-, r'', hr'', -, htype⟩
    obtain ⟨hmem', hkey⟩ := registrationOf_eq_ok_iff.mp hr'
    have hfind' : s.find? e.name = some r' :=
      SortedBy.find?_eq_some_iff.mpr ⟨hmem', congrArg Attribute.name hkey⟩
    cases hfind'.symm.trans hr''
    exact htype (congrArg Attribute.type hkey)
  · rintro ⟨hreport, hseen⟩
    by_cases hconflict : s.Conflicts c e
    · exact absurd ((report_isMatch_of_conflicts hconflict).mp hreport) hseen
    have htypes : r.key.type = e.value.type ∧ r.Typed c :=
      ⟨by_contra fun h => hconflict ⟨r, hfind, .inl h⟩,
        by_contra fun h => hconflict ⟨r, hfind, .inr h⟩⟩
    have hkey : r.key = e.key := by
      show Attribute.mk r.name r.key.type = ⟨e.name, e.value.type⟩
      rw [hname, htypes.1]
    have hr : s.registrationOf e.key = .ok r := registrationOf_eq_ok_iff.mpr ⟨hmem, hkey⟩
    exact ⟨r, hr, htypes.2, (report_isMatch hr htypes.2).symm.trans hreport⟩

/--
**An explanation tells the verdict of the matcher, up to types that it overlooks.** Let the names of
the request be registered. The matcher accepts when all reports agree and none of them overlooks the
type of a requested value; when it turns the candidate down, a report says so; and so does the
report on every conflict of types that is not overlooked.
-/
theorem isMatch_iff_explain (s : Schema) (c requested : AttributeSet)
    (hregistered : ∀ e ∈ requested.entries, (s.find? e.name).isSome = true) :
    (s.isMatch c requested = .ok true ↔
      (∀ d ∈ s.explain c requested, d.isMatch = true) ∧
        ∀ e ∈ requested.entries, ¬ s.Overlooks c e) ∧
    (s.isMatch c requested = .ok false → ∃ d ∈ s.explain c requested, d.isMatch = false) ∧
    ∀ e ∈ requested.entries, s.Conflicts c e → ¬ s.Overlooks c e →
      ∃ d ∈ s.explain c requested, d.requested = e ∧ d.isMatch = false := by
  refine ⟨?_, exists_isMatch_eq_false, fun e he hconflict hseen => ?_⟩
  · unfold isMatch explain
    rw [satisfies_eq_ok_true_iff, List.forall_mem_map, ← forall₂_and]
    refine forall₂_congr fun e he => ?_
    obtain ⟨r, hfind⟩ := Option.isSome_iff_exists.mp (hregistered e he)
    exact exists_fits_iff hfind
  · refine ⟨s.report c e, List.mem_map_of_mem he, rfl, Bool.eq_false_iff.mpr fun hreport => ?_⟩
    exact hseen ((report_isMatch_of_conflicts hconflict).mp hreport)

/-- A request for a level, by its name in words. -/
def levelText : AttributeSet := .singleton ⟨"level", .string "eleven"⟩

/-- A level is optional, and where a candidate has one, a text in its place is noticed. -/
theorem isMatch_iff_explain_levels :
    levelSchema.isMatch .empty (ofLevel 18) = .ok true ∧
      ∃ d ∈ levelSchema.explain (ofLevel 17) levelText,
        d.requested = ⟨"level", .string "eleven"⟩ ∧ d.isMatch = false := by
  have hconflict : levelSchema.Conflicts (ofLevel 17) ⟨"level", .string "eleven"⟩ :=
    ⟨{ key := ⟨"level", .integer⟩, compatibility := .atMost, preference := .highest }, rfl,
      .inl (by decide)⟩
  refine ⟨(isMatch_iff_explain levelSchema .empty (ofLevel 18) (by decide)).1.mpr
      ⟨by decide, by decide⟩, ?_⟩
  exact (isMatch_iff_explain levelSchema (ofLevel 17) levelText (by decide)).2.2 _
    List.mem_cons_self hconflict (by decide)

/-- The matcher objects to a level in words; the report on a candidate without a level does not. -/
theorem explain_agrees_levelText :
    (∀ e ∈ levelText.entries, (levelSchema.find? e.name).isSome = true) ∧
      levelSchema.isMatch .empty levelText =
        .error (.typeMismatch ⟨"level", .integer⟩ .string) ∧
      ¬ ((∀ d ∈ levelSchema.explain .empty levelText, d.isMatch = true) ↔
        levelSchema.isMatch .empty levelText = .ok true) := by
  have hmatch : levelSchema.isMatch .empty levelText =
      .error (.typeMismatch ⟨"level", .integer⟩ .string) := by rfl
  refine ⟨by decide, hmatch, fun h => ?_⟩
  have hverdict := h.mp (by decide)
  rw [hmatch] at hverdict
  cases hverdict

end Schema

end BuildInputs

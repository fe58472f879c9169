import BuildInputs.Proofs.Matching.Explanation
import BuildInputs.Proofs.Matching.Survival

/-!
# An exact match wins

With built-in rules a candidate that has exactly the requested values is always selected, and beside
it no other value of a requested attribute is, where the attribute decides between candidates.

1. An exact match matches: every built-in rule accepts the requested value itself
   (`isMatch_self`).
2. Once the requested value is carried, it is the only one on the shortlist of its attribute
   (`mem_shortlist_iff_eq`). So an exact match stays in every round (`stays_of_eq_request`).
3. It is therefore still there when the round of an attribute comes, however late that is, and
   drops what carries another value (`eq_of_mem_survivors`).
-/

namespace BuildInputs

namespace Compatibility

/-- The rules other than `custom`. -/
def isBuiltIn : Compatibility → Bool
  | custom _ _ => false
  | _ => true

/-- **A built-in rule accepts the requested value itself.** -/
theorem accepts_self {rule : Compatibility} (hbuiltIn : rule.isBuiltIn = true) (v : Value) :
    rule.accepts v v = true := by
  have hself : compare v v = .eq := Std.ReflOrd.compare_self
  cases rule with
  | equality => exact decide_eq_true rfl
  | atMost => show (compare v v).isLE = true; rw [hself]; rfl
  | atLeast => show (compare v v).isGE = true; rw [hself]; rfl
  | orAccepted accepted =>
    show (decide (v = v) || _) = true
    rw [decide_eq_true rfl, Bool.true_or]
  | custom => cases hbuiltIn

end Compatibility

namespace Schema

variable {α : Type} {attributes : α → AttributeSet} {s : Schema} {request c : AttributeSet}
  {a : Attribute} {r : Registration} {values : ValueSet} {v m : Value} {xs : List α} {x u : α}
  {as : List Attribute}

/-! ## An exact match matches -/

/-- A set has one entry under a name, so it has the registered type if that entry does. -/
theorem typed_of_mem {e : Entry} (hkey : r.key = e.key) (he : e ∈ c.entries) : r.Typed c := by
  intro e' he'
  obtain ⟨hmem, hname⟩ := AttributeSet.entry?_eq_some_iff.mp he'
  obtain rfl : e' = e :=
    SortedBy.eq_of_key_eq hmem he (hname.trans (congrArg Attribute.name hkey))
  exact congrArg Attribute.type hkey.symm

/-- **A set matches a request for its own values.** -/
theorem isMatch_self (hrequest : s.checkRequest request.entries = .ok ())
    (hbuiltIn : ∀ r ∈ s.registrations.toList, r.compatibility.isBuiltIn = true) :
    s.isMatch request request = .ok true := by
  refine satisfies_eq_ok_true_iff.mpr fun e he => ?_
  obtain ⟨r, hr⟩ := checkRequest_eq_ok_iff.mp hrequest e he
  obtain ⟨hmem, hkey⟩ := registrationOf_eq_ok_iff.mp hr
  have hget : request.get? r.key = some e.value :=
    AttributeSet.get?_eq_some_iff.mpr (hkey ▸ ⟨he, rfl⟩)
  refine ⟨r, hr, typed_of_mem hkey he, ?_⟩
  unfold Registration.fits
  rw [hget]
  exact Compatibility.accepts_self (hbuiltIn r hmem) e.value

/-- Under a requested name the matcher has looked at the type, so an entry is a value. -/
theorem get?_of_isMatch {e e' : Entry} (hmatch : s.isMatch c request = .ok true)
    (hr : r ∈ s.registrations.toList) (he : e ∈ request.entries) (hname : e.name = r.name)
    (he' : e' ∈ c.entries) (hname' : e'.name = r.name) : c.get? r.key = some e'.value := by
  obtain ⟨r', hr', htype, -⟩ := accepts_of_isMatch hmatch he he' (hname'.trans hname.symm)
  obtain ⟨hmem, hkey⟩ := registrationOf_eq_ok_iff.mp hr'
  obtain rfl : r' = r :=
    SortedBy.eq_of_key_eq hmem hr ((congrArg Attribute.name hkey).trans hname)
  have hkeyName : r'.key.name = e'.name := hname'.symm
  exact AttributeSet.get?_eq_some_iff.mpr ⟨hkeyName ▸ he', htype⟩

/-- Every exact match is among the candidates that match. -/
theorem filter_exact_matching (hself : s.isMatch request request = .ok true) :
    (s.matching attributes request xs).filter (fun x => attributes x = request) =
      xs.filter fun x => attributes x = request := by
  unfold matching
  rw [List.filter_filter]
  refine List.filter_congr fun x _ => ?_
  by_cases hexact : attributes x = request
  · rw [hexact, hself, Bool.and_true]
  · rw [decide_eq_false hexact, Bool.false_and]

/-! ## One round -/

/-- **The requested value is alone on the shortlist** once it is carried. -/
theorem mem_shortlist_iff_eq (hbuiltIn : r.preference.isBuiltIn = true)
    (htrivial : r.preference.isTrivial = false) (hm : m ∈ values.toList) :
    v ∈ (shortlist r (some m) values).toList ↔ v = m := by
  obtain ⟨-, hbest, -⟩ := Preference.picks_requested hbuiltIn htrivial hm
  have hmem : m ∈ (r.preference.best (some m) values).toList := by
    rw [hbest]
    exact SortedBy.mem_singleton.mpr rfl
  rw [mem_shortlist_iff_of_mem_best hmem hm, hbest, SortedBy.mem_singleton]
  exact ⟨And.left, fun h => ⟨h, h ▸ hm⟩⟩

/-- **An exact match stays.** -/
theorem stays_of_eq_request (hbuiltIn : r.preference.isBuiltIn = true) (hx : x ∈ xs)
    (hexact : attributes x = request) :
    stays r (request.get? r.key) (carried attributes r.key xs) (attributes x) = true := by
  by_cases htrivial : r.preference.isTrivial = true
  · exact stays_of_isTrivial htrivial
  have htrivial : r.preference.isTrivial = false := Bool.eq_false_iff.mpr htrivial
  cases hget : request.get? r.key with
  | none => exact stays_of_get?_eq_none (hexact ▸ hget)
  | some m =>
    have hm : m ∈ (carried attributes r.key xs).toList := mem_carried.mpr ⟨x, hx, hexact ▸ hget⟩
    rw [stays_iff htrivial, hexact, hget]
    intro v hv
    exact (mem_shortlist_iff_eq hbuiltIn htrivial hm).mpr (Option.some.inj hv).symm

/-! ## All rounds -/

theorem exact_sublist_survivors
    (hbuiltIn : ∀ r ∈ s.registrations.toList, r.preference.isBuiltIn = true) :
    (xs.filter fun x => attributes x = request).Sublist
      (s.survivors attributes request as xs) := by
  refine filter_sublist_survivors fun a _ r hr ys y hy hexact => ?_
  obtain ⟨hmem, rfl⟩ := registrationOf_eq_ok_iff.mp hr
  exact stays_of_eq_request (hbuiltIn r hmem) hy (of_decide_eq_true hexact)

/-- **Beside an exact match only the requested value survives** the round of an attribute. -/
theorem eq_of_mem_survivors
    (hbuiltIn : ∀ r ∈ s.registrations.toList, r.preference.isBuiltIn = true)
    (hexact : ∃ x ∈ xs, attributes x = request) (hr : r ∈ s.registrations.toList)
    (htrivial : r.preference.isTrivial = false) (ha : r.key ∈ as)
    (hm : request.get? r.key = some m) (hu : u ∈ s.survivors attributes request as xs)
    (hv : (attributes u).get? r.key = some v) : v = m := by
  obtain ⟨before, after, rfl⟩ := List.append_of_mem ha
  have hregistration : s.registrationOf r.key = .ok r := registrationOf_eq_ok_iff.mpr ⟨hr, rfl⟩
  rw [survivors_append, survivors_cons hregistration] at hu
  -- the exact match is still there when the round comes, so its value is carried
  obtain ⟨x, hx, hexact⟩ := hexact
  have hleft : x ∈ s.survivors attributes request before xs :=
    (exact_sublist_survivors hbuiltIn).subset
      (List.mem_filter.mpr ⟨hx, decide_eq_true hexact⟩)
  have hcarried := mem_carried.mpr ⟨x, hleft, hexact ▸ hm⟩
  -- and what the later rounds leave stayed in this one
  have hstays := (List.mem_filter.mp (survivors_sublist.subset hu)).2
  rw [hm, stays_iff htrivial] at hstays
  exact (mem_shortlist_iff_eq (hbuiltIn r hr) htrivial hcarried).mp (hstays v hv)

/-! ## Selections -/

/-- The attribute decides between candidates. -/
structure Decides (s : Schema) (r : Registration) : Prop where
  registered : r ∈ s.registrations.toList
  listed : r.key ∈ s.precedence
  prefers : r.preference ≠ .indifferent

theorem Decides.isTrivial_eq_false (h : s.Decides r) (hbuiltIn : r.preference.isBuiltIn = true) :
    r.preference.isTrivial = false := by
  have hprefers := h.prefers
  cases hrule : r.preference with
  | indifferent => exact absurd hrule hprefers
  | custom => rw [hrule] at hbuiltIn; cases hbuiltIn
  | requested | highest | lowest | listed => rfl

/--
**An exact match wins.** Let all rules be built in. A selection that returns takes every candidate
that has exactly the requested values. If there is one, then under the name of each attribute that
is requested and decides between candidates, a selected candidate has the requested entry or none.
-/
theorem select_exact_match (s : Schema) (attributes : α → AttributeSet) (request : AttributeSet)
    (xs us : List α)
    (hbuiltIn : ∀ r ∈ s.registrations.toList,
      r.compatibility.isBuiltIn = true ∧ r.preference.isBuiltIn = true)
    (h : s.select attributes xs request = .ok us) :
    (xs.filter fun x => attributes x = request).Sublist us ∧
      ((∃ x ∈ xs, attributes x = request) →
        ∀ r, s.Decides r → ∀ e ∈ request.entries, e.name = r.name →
          ∀ u ∈ us, ∀ e' ∈ (attributes u).entries, e'.name = r.name → e' = e) := by
  have hpreference : ∀ r ∈ s.registrations.toList, r.preference.isBuiltIn = true :=
    fun r hr => (hbuiltIn r hr).2
  have hself : s.isMatch request request = .ok true :=
    isMatch_self (select_eq_ok_iff.mp h).1 fun r hr => (hbuiltIn r hr).1
  refine ⟨?_, ?_⟩
  · rw [select_eq_survivors h, ← filter_exact_matching hself]
    exact exact_sublist_survivors hpreference
  rintro ⟨x, hx, hexact⟩ r hdecides e he hname u hu e' he' hname'
  have hmatch := (mem_matching.mp ((select_sublist_matching h).subset hu)).2
  have hm := get?_of_isMatch hself hdecides.registered he hname he hname
  have hv := get?_of_isMatch hmatch hdecides.registered he hname he' hname'
  have hleft : x ∈ s.matching attributes request xs := mem_matching.mpr ⟨hx, hexact ▸ hself⟩
  rw [select_eq_survivors h] at hu
  have hvalue : e'.value = e.value :=
    eq_of_mem_survivors hpreference ⟨x, hleft, hexact⟩ hdecides.registered
      (hdecides.isTrivial_eq_false (hpreference r hdecides.registered)) hdecides.listed hm hu hv
  show Entry.mk e'.name e'.value = ⟨e.name, e.value⟩
  rw [hname', hname, hvalue]

/-- A level that is named exactly beats a lower one, and what has no level stays beside it. -/
theorem select_exact_match_packaged :
    packagingSchema.select id [packaged "external" 8, ofLevel 11, packaged "external" 11,
        packaged "external" 17] (packaged "external" 11) =
      .ok [ofLevel 11, packaged "external" 11] ∧
    [packaged "external" 11].Sublist [ofLevel 11, packaged "external" 11] ∧
    ∀ u ∈ [ofLevel 11, packaged "external" 11], ∀ e ∈ u.entries, e.name = "level" →
      e = ⟨"level", .integer 11⟩ := by
  have hselect : packagingSchema.select id [packaged "external" 8, ofLevel 11,
        packaged "external" 11, packaged "external" 17] (packaged "external" 11) =
      .ok [ofLevel 11, packaged "external" 11] := rfl
  have hdecides : packagingSchema.Decides
      { key := ⟨"level", .integer⟩, compatibility := .atMost, preference := .highest } :=
    ⟨List.mem_cons_self, by decide, fun h => (by cases h)⟩
  obtain ⟨hexact, hwins⟩ := select_exact_match packagingSchema id _ _ _ (by decide) hselect
  exact ⟨hselect, hexact, hwins ⟨packaged "external" 11, by decide, rfl⟩ _ hdecides
    ⟨"level", .integer 11⟩ (by decide) rfl⟩

end Schema

end BuildInputs

import BuildInputs.Proofs.Matching.Lexicographic
import BuildInputs.Proofs.Matching.Shortcuts

/-!
# What survives a selection

Whatever the preferences are, a selection takes matching candidates in their order, and it takes one
if there is one (`select_keeps_last`): each value on the shortlist of a round is carried by a
candidate. What stays in every round survives (`filter_sublist_survivors`), in particular the
candidates that no round has anything to say about (`undecided_sublist_survivors`).

With built-in preferences the survivors also survive a second selection among themselves
(`select_idempotent`). Its rounds find fewer values carried, but:

1. a value that is best among many is best among a part of them (`mem_shortlist_of_subset`),
2. so a round keeps any part of what it kept before (`narrowed_eq_self`),
3. and what is left in the end is a part of what each round kept (`narrow_idempotent`).
-/

namespace BuildInputs.Schema

variable {α : Type} {attributes : α → AttributeSet} {s : Schema} {request c : AttributeSet}
  {r : Registration} {q : Option Value} {xs ys us : List α} {as : List Attribute}

/-! ## The last candidate -/

/-- The set has none of the attributes that decide between candidates. -/
def Undecided (s : Schema) (c : AttributeSet) : Prop := ∀ a ∈ s.precedence, c.get? a = none

instance (s : Schema) (c : AttributeSet) : Decidable (s.Undecided c) :=
  inferInstanceAs (Decidable (∀ _ ∈ _, _))

/-- **Candidates that stay in every round survive**, all of them and in their order. -/
theorem filter_sublist_survivors {p : α → Bool}
    (hstays : ∀ a ∈ as, ∀ r, s.registrationOf a = .ok r → ∀ ys, ∀ y ∈ ys, p y = true →
      stays r (request.get? a) (carried attributes r.key ys) (attributes y) = true) :
    (xs.filter p).Sublist (s.survivors attributes request as xs) := by
  induction as generalizing xs with
  | nil => exact List.filter_sublist
  | cons a as ih =>
    obtain ⟨hround, hstays⟩ := List.forall_mem_cons.mp hstays
    rw [survivors]
    split
    · next r hr =>
      -- the round drops none of them
      have hkept : (narrowed attributes r (request.get? a) xs).filter p = xs.filter p := by
        unfold narrowed
        rw [List.filter_filter]
        refine List.filter_congr fun x hx => ?_
        cases hp : p x with
        | true => rw [hround r hr xs x hx hp, Bool.and_true]
        | false => rw [Bool.false_and]
      rw [← hkept]
      exact ih hstays
    · exact ih hstays

/-- Candidates without the attributes of the rounds survive them. -/
theorem undecided_sublist_survivors (has : as ⊆ s.precedence) :
    (xs.filter fun x => s.Undecided (attributes x)).Sublist
      (s.survivors attributes request as xs) := by
  refine filter_sublist_survivors fun a ha r hr ys y _ hy => stays_of_get?_eq_none ?_
  have hkey : r.key = a := (registrationOf_eq_ok_iff.mp hr).2
  exact of_decide_eq_true hy r.key (hkey ▸ has ha)

/--
**A selection never loses the last candidate.** It takes candidates that match, in their order, and
none only if none matches. Those that have no attribute of the precedence are taken whenever they
match.
-/
theorem select_keeps_last (s : Schema) (attributes : α → AttributeSet) (request : AttributeSet)
    (xs us : List α) (h : s.select attributes xs request = .ok us) :
    us.Sublist xs ∧ (∀ x ∈ us, s.isMatch (attributes x) request = .ok true) ∧
      (us = [] ↔ ∀ x ∈ xs, s.isMatch (attributes x) request ≠ .ok true) ∧
      ((s.matching attributes request xs).filter fun x => s.Undecided (attributes x)).Sublist
        us := by
  have hsub := select_sublist_matching h
  refine ⟨hsub.trans List.filter_sublist, fun x hx => (mem_matching.mp (hsub.subset hx)).2,
    ⟨?_, ?_⟩, ?_⟩
  · rintro rfl x hx hmatch
    have hfalse := isMatch_of_select_eq_nil h x hx
    rw [hmatch] at hfalse
    cases hfalse
  · intro hnone
    refine List.eq_nil_iff_forall_not_mem.mpr fun x hx => ?_
    obtain ⟨hmem, hmatch⟩ := mem_matching.mp (hsub.subset hx)
    exact hnone x hmem hmatch
  · rw [select_eq_survivors h]
    exact undecided_sublist_survivors (List.Subset.refl _)

/-- Of the levels that match none is preferred, so all of them stay. -/
theorem select_keeps_last_inventiveSchema :
    inventiveSchema.select id [ofLevel 8, ofLevel 21, .empty, ofLevel 11] (ofLevel 18) =
        .ok [ofLevel 8, .empty, ofLevel 11] ∧
      (∀ c ∈ [ofLevel 8, .empty, ofLevel 11],
        inventiveSchema.isMatch c (ofLevel 18) = .ok true) ∧
      [SortedBy.empty].Sublist [ofLevel 8, .empty, ofLevel 11] := by
  have hselect : inventiveSchema.select id [ofLevel 8, ofLevel 21, .empty, ofLevel 11]
      (ofLevel 18) = .ok [ofLevel 8, .empty, ofLevel 11] := rfl
  obtain ⟨-, hmatch, -, hundecided⟩ := select_keeps_last inventiveSchema id _ _ _ hselect
  exact ⟨hselect, hmatch, hundecided⟩

/-! ## Selecting again -/

theorem mem_carried_of_subset {a : Attribute} {v : Value} (h : ys ⊆ xs)
    (hv : v ∈ (carried attributes a ys).toList) : v ∈ (carried attributes a xs).toList := by
  obtain ⟨y, hy, hget⟩ := mem_carried.mp hv
  exact mem_carried.mpr ⟨y, h hy, hget⟩

/-- **What is best among many values is best among a part of them.** -/
theorem mem_shortlist_of_subset (hbuiltIn : r.preference.isBuiltIn = true) {values part : ValueSet}
    {v : Value} (hpart : ∀ w ∈ part.toList, w ∈ values.toList) (hv : v ∈ part.toList)
    (h : v ∈ (shortlist r q values).toList) : v ∈ (shortlist r q part).toList := by
  have hleast := (mem_shortlist_iff hbuiltIn (hpart v hv)).mp h
  exact (mem_shortlist_iff hbuiltIn hv).mpr fun w hw => hleast w (hpart w hw)

/-- **A round keeps any part of what it kept before.** -/
theorem narrowed_eq_self (hbuiltIn : r.preference.isBuiltIn = true)
    (h : ys ⊆ narrowed attributes r q xs) : narrowed attributes r q ys = ys := by
  refine List.filter_eq_self.mpr fun y hy => ?_
  have hkept := List.mem_filter.mp (h hy)
  cases hget : (attributes y).get? r.key with
  | none => exact stays_of_get?_eq_none hget
  | some v =>
    have hv : v ∈ (carried attributes r.key ys).toList := mem_carried.mpr ⟨y, hy, hget⟩
    have hsub : ys ⊆ xs := fun z hz => (List.mem_filter.mp (h hz)).1
    have hbest := (stays_iff_mem_shortlist hbuiltIn hget (mem_carried_of_subset hsub hv)).mp hkept.2
    rw [stays_iff_mem_shortlist hbuiltIn hget hv]
    exact mem_shortlist_of_subset hbuiltIn (fun w => mem_carried_of_subset hsub) hv hbest

theorem subset_of_narrow (h : s.narrow attributes request as xs = .ok us) : us ⊆ xs := by
  rw [narrow_eq_survivors h]
  exact survivors_sublist.subset

/-- **What the rounds leave, they leave again.** -/
theorem narrow_idempotent (hbuiltIn : ∀ r ∈ s.registrations.toList, r.preference.isBuiltIn = true)
    (h : s.narrow attributes request as xs = .ok us) :
    s.narrow attributes request as us = .ok us := by
  induction as generalizing xs with
  | nil => rfl
  | cons a as ih =>
    by_cases hlength : us.length ≤ 1
    · exact narrow_of_length_le_one hlength
    rw [narrow] at h
    split at h
    · next hle => exact absurd (Except.ok.inj h ▸ hle) hlength
    obtain ⟨next, hnext, h⟩ := bind_eq_ok.mp h
    obtain ⟨r, hr, -⟩ := bind_eq_ok.mp hnext
    obtain ⟨htyped, rfl⟩ := (narrowBy_eq_ok_iff hr).mp hnext
    have hkept := subset_of_narrow h
    have hround : s.narrowBy attributes request a us = .ok us := by
      refine (narrowBy_eq_ok_iff hr).mpr ⟨fun htrivial x hx => ?_, ?_⟩
      · exact htyped htrivial x (List.mem_of_mem_filter (hkept hx))
      · exact (narrowed_eq_self (hbuiltIn r (registrationOf_eq_ok_iff.mp hr).1) hkept).symm
    rw [narrow, if_neg hlength, hround]
    exact ih h

/--
**Selecting among the selected changes nothing**, if the preferences are built in: the same
candidates are selected again, all of them and without an error.
-/
theorem select_idempotent (s : Schema) (attributes : α → AttributeSet) (request : AttributeSet)
    (xs us : List α) (hbuiltIn : ∀ r ∈ s.registrations.toList, r.preference.isBuiltIn = true)
    (h : s.select attributes xs request = .ok us) :
    s.select attributes us request = .ok us := by
  have hmatch : ∀ x ∈ us, s.isMatch (attributes x) request = .ok true := fun x hx =>
    (mem_matching.mp ((select_sublist_matching h).subset hx)).2
  have hmatching : s.matching attributes request us = us := by
    refine List.filter_eq_self.mpr fun x hx => ?_
    rw [hmatch x hx]
  obtain ⟨hrequest, -, hnarrow⟩ := select_eq_ok_iff.mp h
  refine select_eq_ok_iff.mpr ⟨hrequest, fun x hx => ⟨true, hmatch x hx⟩, ?_⟩
  rw [hmatching]
  exact narrow_idempotent hbuiltIn hnarrow

/-- The set without a level is selected again, though a level is preferred beside it. -/
theorem select_idempotent_packaged :
    packagingSchema.select id [packaged "external" 17, packaged "shadowed" 8,
        .singleton ⟨"packaging", .string "shadowed"⟩, packaged "shadowed" 11] .empty =
      .ok [.singleton ⟨"packaging", .string "shadowed"⟩, packaged "shadowed" 11] ∧
    packagingSchema.select id [.singleton ⟨"packaging", .string "shadowed"⟩,
        packaged "shadowed" 11] .empty =
      .ok [.singleton ⟨"packaging", .string "shadowed"⟩, packaged "shadowed" 11] := by
  have hselect : packagingSchema.select id [packaged "external" 17, packaged "shadowed" 8,
        .singleton ⟨"packaging", .string "shadowed"⟩, packaged "shadowed" 11] .empty =
      .ok [.singleton ⟨"packaging", .string "shadowed"⟩, packaged "shadowed" 11] := rfl
  exact ⟨hselect, select_idempotent packagingSchema id .empty _ _ (by decide) hselect⟩

end BuildInputs.Schema

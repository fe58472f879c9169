import BuildInputs.Proofs.Matching.Rounds

/-!
# A selection depends on the set of candidates only

A round looks at a candidate through its attribute set alone, and the values that it finds carried
are a set. So two lists that hold the same attribute sets (`SameSets`) keep doing so from round to
round, whatever the rules are and however often a set is repeated. The stop at one candidate counts
repetitions, but it is invisible in what is left (`narrow_eq_survivors`).

* `map_survivors` : the rounds act on attribute sets.
* `survivors_sameSets` : the invariant of two runs.
* `narrow_ok_of_perm` : whether the rounds return does not depend on the order.
* `select_depends_on_sets` : the property of whole selections.
-/

namespace BuildInputs

namespace Schema

variable {α β : Type} {f : α → AttributeSet} {g : β → AttributeSet} {s : Schema}
  {request : AttributeSet} {r : Registration} {xs us : List α} {ys vs : List β}

/-- Two lists of candidates hold the same attribute sets, in any order and multiplicity. -/
def SameSets (f : α → AttributeSet) (g : β → AttributeSet) (xs : List α) (ys : List β) : Prop :=
  ∀ c, c ∈ xs.map f ↔ c ∈ ys.map g

/-- Of the candidates with one attribute set, `us` takes all or none. -/
def TakesAllCopies (f : α → AttributeSet) (xs us : List α) : Prop :=
  us = xs.filter fun x => f x ∈ us.map f

/-! ## One round -/

theorem map_narrowed {q : Option Value} : (narrowed f r q xs).map f =
    (xs.map f).filter (stays r q (carried f r.key xs)) := by
  rw [List.filter_map]
  rfl

theorem map_matching : (s.matching f request xs).map f =
    (xs.map f).filter fun c => s.isMatch c request matches .ok true := by
  rw [List.filter_map]
  rfl

theorem matching_sameSets (h : SameSets f g xs ys) :
    SameSets f g (s.matching f request xs) (s.matching g request ys) := by
  intro c
  rw [map_matching, map_matching, List.mem_filter, List.mem_filter, h c]

/-- **A round preserves that two lists hold the same attribute sets.** -/
theorem narrowed_sameSets {q : Option Value} (h : SameSets f g xs ys) :
    SameSets f g (narrowed f r q xs) (narrowed g r q ys) := by
  intro c
  rw [map_narrowed, map_narrowed, List.mem_filter, List.mem_filter, h c, carried_eq_of_mem_iff h]

/-! ## All rounds -/

theorem survivors_sameSets {as : List Attribute} (h : SameSets f g xs ys) :
    SameSets f g (s.survivors f request as xs) (s.survivors g request as ys) := by
  induction as generalizing xs ys with
  | nil => exact h
  | cons a as ih =>
    rw [survivors, survivors]
    split
    · exact ih (narrowed_sameSets h)
    · exact ih h

/-- What is left of a list is told by a test of attribute sets. -/
theorem exists_survivors_eq_filter (as : List Attribute) (xs : List α) :
    ∃ keep : AttributeSet → Bool,
      s.survivors f request as xs = xs.filter fun x => keep (f x) := by
  induction as generalizing xs with
  | nil => exact ⟨fun _ => true, (List.filter_true _).symm⟩
  | cons a as ih =>
    rw [survivors]
    split
    · next r hr =>
      obtain ⟨keep, hkeep⟩ := ih (narrowed f r (request.get? a) xs)
      rw [hkeep, narrowed, List.filter_filter]
      exact ⟨fun c => keep c && stays r (request.get? a) (carried f r.key xs) c, rfl⟩
    · exact ih xs

theorem survivors_sublist {as : List Attribute} :
    (s.survivors f request as xs).Sublist xs := by
  obtain ⟨keep, hkeep⟩ : ∃ keep : AttributeSet → Bool,
      s.survivors f request as xs = xs.filter fun x => keep (f x) :=
    exists_survivors_eq_filter as xs
  rw [hkeep]
  exact List.filter_sublist

theorem takesAllCopies_filter (keep : AttributeSet → Bool) :
    TakesAllCopies f xs (xs.filter fun x => keep (f x)) := by
  refine List.filter_congr fun x hx => ?_
  cases hkeep : keep (f x) with
  | false =>
    refine (decide_eq_false fun hmem => ?_).symm
    obtain ⟨y, hy, he⟩ := List.mem_map.mp hmem
    have hy : keep (f y) = true := (List.mem_filter.mp hy).2
    -- the copy that was taken passed the same test
    rw [he, hkeep] at hy
    cases hy
  | true => exact (decide_eq_true (List.mem_map_of_mem (List.mem_filter.mpr ⟨hx, hkeep⟩))).symm

theorem select_takesAllCopies (h : s.select f xs request = .ok us) : TakesAllCopies f xs us := by
  obtain ⟨keep, hkeep⟩ := exists_survivors_eq_filter s.precedence (s.matching f request xs)
  rw [select_eq_survivors h, hkeep, matching, List.filter_filter]
  exact takesAllCopies_filter fun c => keep c && s.isMatch c request matches .ok true

/-- **The selected candidates match, and keep their order.** -/
theorem select_sublist_matching (h : s.select f xs request = .ok us) :
    us.Sublist (s.matching f request xs) := by
  rw [select_eq_survivors h]
  exact survivors_sublist

/-! ## Errors -/

theorem narrowBy_ok_of_perm {a : Attribute} (h : (xs.map f).Perm (ys.map g))
    (hus : s.narrowBy f request a xs = .ok us) :
    ∃ vs, s.narrowBy g request a ys = .ok vs ∧ (us.map f).Perm (vs.map g) := by
  obtain ⟨r, hr, -⟩ := bind_eq_ok.mp hus
  obtain ⟨htyped, rfl⟩ := (narrowBy_eq_ok_iff hr).mp hus
  refine ⟨_, (narrowBy_eq_ok_iff hr).mpr ⟨fun htrivial y hy => ?_, rfl⟩, ?_⟩
  · obtain ⟨x, hx, he⟩ := List.mem_map.mp (h.mem_iff.mpr (List.mem_map_of_mem hy))
    exact he ▸ htyped htrivial x hx
  · rw [map_narrowed, map_narrowed, carried_eq_of_mem_iff fun c => h.mem_iff]
    exact h.filter _

/-- **Whether the rounds return does not depend on the order of the candidates.** -/
theorem narrow_ok_of_perm {as : List Attribute} (h : (xs.map f).Perm (ys.map g))
    (hus : s.narrow f request as xs = .ok us) : ∃ vs, s.narrow g request as ys = .ok vs := by
  induction as generalizing xs ys with
  | nil => exact ⟨ys, rfl⟩
  | cons a as ih =>
    -- equally many candidates are left, so both runs stop here or neither does
    have hlength : xs.length = ys.length := by simpa using h.length_eq
    rw [narrow] at hus ⊢
    rw [← hlength]
    split at hus
    · next hle => exact ⟨ys, by rw [if_pos hle]; rfl⟩
    · next hgt =>
      obtain ⟨xs', hxs', hus⟩ := bind_eq_ok.mp hus
      obtain ⟨ys', hys', hperm⟩ := narrowBy_ok_of_perm h hxs'
      obtain ⟨vs, hvs⟩ := ih hperm hus
      rw [if_neg hgt]
      exact ⟨vs, bind_eq_ok.mpr ⟨ys', hys', hvs⟩⟩

theorem select_ok_of_perm (h : (xs.map f).Perm (ys.map g))
    (hus : s.select f xs request = .ok us) : ∃ vs, s.select g ys request = .ok vs := by
  obtain ⟨hrequest, hmatch, hnarrow⟩ := select_eq_ok_iff.mp hus
  have hperm : ((s.matching f request xs).map f).Perm ((s.matching g request ys).map g) := by
    rw [map_matching, map_matching]
    exact h.filter _
  obtain ⟨vs, hvs⟩ := narrow_ok_of_perm hperm hnarrow
  refine ⟨vs, select_eq_ok_iff.mpr ⟨hrequest, fun y hy => ?_, hvs⟩⟩
  obtain ⟨x, hx, he⟩ := List.mem_map.mp (h.mem_iff.mpr (List.mem_map_of_mem hy))
  exact he ▸ hmatch x hx

/-! ## Selections -/

/--
**A selection depends on the set of candidates only.** If two lists hold the same attribute sets and
both selections return, they select the same attribute sets, and each takes all copies of them. If
one list is a permutation of the other, both selections return or neither does.
-/
theorem select_depends_on_sets (s : Schema) (f : α → AttributeSet) (g : β → AttributeSet)
    (request : AttributeSet) (xs : List α) (ys : List β) :
    (SameSets f g xs ys → ∀ us vs, s.select f xs request = .ok us →
      s.select g ys request = .ok vs →
        SameSets f g us vs ∧ TakesAllCopies f xs us ∧ TakesAllCopies g ys vs) ∧
    ((xs.map f).Perm (ys.map g) →
      ((∃ e, s.select f xs request = .error e) ↔ ∃ e, s.select g ys request = .error e)) := by
  constructor
  · intro h us vs hus hvs
    refine ⟨?_, select_takesAllCopies hus, select_takesAllCopies hvs⟩
    rw [select_eq_survivors hus, select_eq_survivors hvs]
    exact survivors_sameSets (matching_sameSets h)
  · intro h
    rw [exists_error_iff, exists_error_iff]
    refine not_congr ⟨?_, ?_⟩
    · rintro ⟨us, hus⟩
      exact select_ok_of_perm h hus
    · rintro ⟨vs, hvs⟩
      exact select_ok_of_perm h.symm hvs

/-- A schema with one attribute, of which runs the highest that is not above the request. -/
def levelSchema : Schema :=
  let level : Attribute := ⟨"level", .integer⟩
  let draft : SchemaDraft := {
    registrations := [{ key := level, compatibility := .atMost, preference := .highest }]
    precedence := some [level] }
  draft.freeze (by decide)

def ofLevel (n : Int64) : AttributeSet := .singleton ⟨"level", .integer n⟩

theorem select_depends_on_sets_levels :
    (SameSets id id [ofLevel 17] [ofLevel 17, ofLevel 17] ∧
      TakesAllCopies id [ofLevel 11, ofLevel 17] [ofLevel 17] ∧
      TakesAllCopies id [ofLevel 17, ofLevel 11, ofLevel 17] [ofLevel 17, ofLevel 17]) ∧
    ((∃ e, levelSchema.select id [ofLevel 11, ofLevel 17] (.singleton ⟨"level", .boolean true⟩) =
        .error e) ↔
      ∃ e, levelSchema.select id [ofLevel 17, ofLevel 11] (.singleton ⟨"level", .boolean true⟩) =
        .error e) := by
  have hsets : SameSets id id [ofLevel 11, ofLevel 17] [ofLevel 17, ofLevel 11, ofLevel 17] := by
    intro c
    rw [List.map_id, List.map_id]
    grind
  exact ⟨(select_depends_on_sets levelSchema id id (ofLevel 18) [ofLevel 11, ofLevel 17]
      [ofLevel 17, ofLevel 11, ofLevel 17]).1 hsets _ _ (by rfl) (by rfl),
    (select_depends_on_sets levelSchema id id (.singleton ⟨"level", .boolean true⟩)
      [ofLevel 11, ofLevel 17] [ofLevel 17, ofLevel 11]).2 (List.Perm.swap _ _ _)⟩

end Schema

end BuildInputs

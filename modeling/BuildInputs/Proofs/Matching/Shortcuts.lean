import BuildInputs.Proofs.Matching.Candidates
import BuildInputs.Proofs.Matching.Errors

/-!
# A selection without shortcuts

A selection saves work in five places: it does not go through the precedence for one candidate or
none, it stops when one is left, and a round ends early when its rule declares that it never
narrows, when no value is carried, and when as many values are preferred as are carried. Here it is
compared with the plain algorithm (`plainSelect`), which knows the rules of the attributes and sets
of values only, and does every round to its end.

1. A round with its shortcuts is the plain round (`plainRound_eq_narrowed`).
2. All of the rounds are, with the early stops (`plainRounds_eq_survivors`).
3. With conforming candidates no round fails, so a selection returns or the request is at fault
   (`select_eq_plainSelect`).
-/

namespace BuildInputs.Schema

variable {α : Type} {attributes : α → AttributeSet} {s : Schema} {request : AttributeSet}
  {a : Attribute} {r : Registration} {xs : List α}

/-! ## The plain algorithm -/

/-- The values that the rule prefers, as far as candidates carry them. -/
def preferredValues (r : Registration) (request : Option Value) (values : ValueSet) : List Value :=
  (r.preference.best request values).toList.filter (· ∈ values.toList)

/-- Candidates with a value that is not preferred are dropped, unless no carried value is. -/
def plainRound (s : Schema) (attributes : α → AttributeSet) (request : AttributeSet)
    (xs : List α) (a : Attribute) : List α :=
  match s.find? a.name with
  | none => xs
  | some r =>
    let preferred := preferredValues r (request.get? a) (carried attributes a xs)
    if preferred = [] then xs
    else xs.filter fun x => ((attributes x).get? a).all (· ∈ preferred)

/-- The compatible candidates after a round for every attribute of the precedence. -/
def plainSelect (s : Schema) (attributes : α → AttributeSet) (request : AttributeSet)
    (xs : List α) : List α :=
  s.precedence.foldl (s.plainRound attributes request) (s.matching attributes request xs)

/-- A rule that declares that it never narrows a choice prefers all values. -/
def TrivialRulesKeepAll (s : Schema) : Prop :=
  ∀ r ∈ s.registrations.toList, r.preference.isTrivial = true →
    ∀ request values, ∀ v ∈ values.toList, v ∈ (r.preference.best request values).toList

/-! ## One round -/

theorem mem_preferredValues {q : Option Value} {values : ValueSet} {v : Value} :
    v ∈ preferredValues r q values ↔ v ∈ (bestCarried r q values).toList := by
  unfold preferredValues
  rw [List.mem_filter, mem_bestCarried, decide_eq_true_iff]

/-- The shortlist holds the preferred values, or all when none is preferred. -/
theorem mem_shortlist_iff_mem_preferredValues {q : Option Value} {values : ValueSet} {v : Value}
    (hv : v ∈ values.toList) : v ∈ (shortlist r q values).toList ↔
      preferredValues r q values = [] ∨ v ∈ preferredValues r q values := by
  have hempty : (bestCarried r q values).isEmpty = true ↔ preferredValues r q values = [] := by
    rw [SortedBy.isEmpty_iff, List.eq_nil_iff_forall_not_mem]
    exact forall_congr' fun w => not_congr mem_preferredValues.symm
  unfold shortlist
  split
  · next h => exact iff_of_true hv (.inl (hempty.mp h))
  · next h => rw [or_iff_right fun hnil => h (hempty.mpr hnil), mem_preferredValues]

/-- Both rounds let a candidate pass for the same reason. -/
theorem stays_iff_preferred (htrivial : s.TrivialRulesKeepAll) (hr : r ∈ s.registrations.toList)
    {q : Option Value} {x : α} (hx : x ∈ xs) :
    stays r q (carried attributes r.key xs) (attributes x) = true ↔
      preferredValues r q (carried attributes r.key xs) = [] ∨
        ((attributes x).get? r.key).all
          (· ∈ preferredValues r q (carried attributes r.key xs)) = true := by
  have hcarried : ∀ v, (attributes x).get? r.key = some v →
      v ∈ (carried attributes r.key xs).toList := fun v hv => mem_carried.mpr ⟨x, hx, hv⟩
  rw [Option.all_eq_true]
  simp only [decide_eq_true_iff]
  by_cases hrule : r.preference.isTrivial = true
  · refine iff_of_true (stays_of_isTrivial hrule) (.inr fun v hv => ?_)
    rw [mem_preferredValues, mem_bestCarried]
    exact ⟨htrivial r hr hrule q _ v (hcarried v hv), hcarried v hv⟩
  · rw [stays_iff (Bool.eq_false_iff.mpr hrule)]
    have hshort : ∀ v, (attributes x).get? r.key = some v → _ :=
      fun v hv => mem_shortlist_iff_mem_preferredValues (r := r) (q := q) (hcarried v hv)
    by_cases hnil : preferredValues r q (carried attributes r.key xs) = []
    · exact iff_of_true (fun v hv => (hshort v hv).mpr (.inl hnil)) (.inl hnil)
    · rw [or_iff_right hnil]
      refine forall₂_congr fun v hv => ?_
      rw [hshort v hv, or_iff_right hnil]

/-- **The shortcuts of a round change nothing.** -/
theorem plainRound_eq_narrowed (htrivial : s.TrivialRulesKeepAll)
    (hr : s.registrationOf a = .ok r) :
    s.plainRound attributes request xs a = narrowed attributes r (request.get? a) xs := by
  obtain ⟨hmem, rfl⟩ := registrationOf_eq_ok_iff.mp hr
  have hfind : s.find? r.key.name = some r := SortedBy.find?_eq_some_iff.mpr ⟨hmem, rfl⟩
  unfold plainRound narrowed
  rw [hfind]
  dsimp only
  split
  · next hnil =>
    refine (List.filter_eq_self.mpr fun x hx => ?_).symm
    exact (stays_iff_preferred htrivial hmem hx).mpr (.inl hnil)
  · next hne =>
    refine List.filter_congr fun x hx => ?_
    rw [Bool.eq_iff_iff, stays_iff_preferred htrivial hmem hx, or_iff_right hne]

/-! ## All rounds -/

/-- **The early stops change nothing either.** -/
theorem plainRounds_eq_survivors (htrivial : s.TrivialRulesKeepAll) {as : List Attribute}
    (has : as ⊆ s.precedence) :
    as.foldl (s.plainRound attributes request) xs = s.survivors attributes request as xs := by
  induction as generalizing xs with
  | nil => rfl
  | cons a as ih =>
    obtain ⟨ha, has⟩ := List.cons_subset.mp has
    obtain ⟨r, hr⟩ := exists_registrationOf ha
    rw [List.foldl_cons, ih has, survivors_cons hr, plainRound_eq_narrowed htrivial hr]

/--
**The shortcuts of a selection change nothing.** Let rules that declare that they never narrow
prefer all values, and let the candidates have the registered types. Unless the request names an
attribute that is not registered with its type, the selection returns what the plain algorithm
leaves: the same candidates in the same order.
-/
theorem select_eq_plainSelect (s : Schema) (attributes : α → AttributeSet) (request : AttributeSet)
    (xs : List α) (htrivial : s.TrivialRulesKeepAll)
    (hconforms : ∀ x ∈ xs, s.Conforms (attributes x)) :
    s.select attributes xs request =
      (s.checkRequest request.entries).map fun _ => s.plainSelect attributes request xs := by
  cases hrequest : s.checkRequest request.entries with
  | error err => exact select_eq_error_of_checkRequest hrequest
  | ok _ =>
    obtain ⟨us, hus⟩ := exists_select_eq_ok hrequest hconforms
    rw [hus, select_eq_survivors hus]
    exact congrArg _ (plainRounds_eq_survivors htrivial (List.Subset.refl _)).symm

/-- The zone never decides; of the levels 17 is preferred, and 99, which nobody has. -/
def inventiveSchema : Schema :=
  let zone : Attribute := ⟨"zone", .string⟩
  let level : Attribute := ⟨"level", .integer⟩
  let draft : SchemaDraft := {
    registrations := [
      { key := zone, preference := .custom (fun _ present => present) false true },
      { key := level, compatibility := .atMost,
        preference := .custom (fun _ _ => .ofList [.integer 17, .integer 99]) false false }]
    precedence := some [zone, level] }
  draft.freeze (by decide)

theorem trivialRulesKeepAll_inventiveSchema : inventiveSchema.TrivialRulesKeepAll := by
  intro r hr hrule q values v hv
  have hzone : ∀ r ∈ inventiveSchema.registrations.toList, r.preference.isTrivial = true →
      r.preference = .custom (fun _ present => present) false true :=
    List.forall_mem_cons.mpr ⟨fun h => (by cases h), List.forall_mem_singleton.mpr fun _ => rfl⟩
  rw [hzone r hr hrule]
  exact hv

/-- A candidate without a level stays beside the one that is preferred. -/
theorem select_eq_plainSelect_inventiveSchema :
    inventiveSchema.TrivialRulesKeepAll ∧
      (∀ c ∈ [ofLevel 11, .empty, ofLevel 17, ofLevel 21], inventiveSchema.Conforms c) ∧
      inventiveSchema.select id [ofLevel 11, .empty, ofLevel 17, ofLevel 21] (ofLevel 18) =
        .ok [.empty, ofLevel 17] := by
  have hconforms : ∀ c ∈ [ofLevel 11, .empty, ofLevel 17, ofLevel 21],
      inventiveSchema.Conforms c := by decide
  have hplain : inventiveSchema.plainSelect id (ofLevel 18)
      [ofLevel 11, .empty, ofLevel 17, ofLevel 21] = [.empty, ofLevel 17] := by decide
  refine ⟨trivialRulesKeepAll_inventiveSchema, hconforms, ?_⟩
  rw [select_eq_plainSelect inventiveSchema id (ofLevel 18) _ trivialRulesKeepAll_inventiveSchema
    hconforms, hplain]
  rfl

end BuildInputs.Schema

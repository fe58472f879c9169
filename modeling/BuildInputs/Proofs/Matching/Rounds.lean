import BuildInputs.Matching
import BuildInputs.Proofs.Attribute.Order
import BuildInputs.Proofs.Attribute.Set

/-!
# What the steps of a selection do

Each step of `Schema.select` either contradicts the schema or does something that can be said
without errors: `compatible` keeps the matching candidates (`matching`), a round keeps those that
carry a value of a shortlist (`narrowed`). The lemmas here say for each step when it returns and
what; the shortcuts of a round (nothing carried, nothing preferred, everything preferred) are cases
of the shortlist, and the early stop is none at all, since one candidate survives every round.

* `compatible_eq_ok_iff`, `narrowBy_eq_ok_iff`, `select_eq_ok_iff` : when a step returns, and what.
* `narrow_eq_survivors` : the early stop does not show in what is left.
-/

namespace BuildInputs

/-! ## Values of attributes -/

namespace Registration

/-- A value under the registered name has the registered type. -/
def Typed (r : Registration) (c : AttributeSet) : Prop :=
  ∀ e, c.entry? r.name = some e → e.value.type = r.key.type

theorem checkType_eq_ok {r : Registration} {found : ValueType} :
    r.checkType found = .ok () ↔ r.key.type = found := by
  unfold checkType
  split
  · next h => exact ⟨fun _ => h, fun _ => rfl⟩
  · next h => exact ⟨fun he => (by cases he), fun he => absurd he h⟩

/-- Where the types agree, the value under the registered name is the value of the attribute. -/
theorem valueIn?_eq_ok_iff {r : Registration} {c : AttributeSet} {v : Option Value} :
    r.valueIn? c = .ok v ↔ r.Typed c ∧ v = c.get? r.key := by
  unfold valueIn? Typed AttributeSet.get?
  show _ ↔ _ ∧ v = ((c.entry? r.name).filter fun e => e.key = r.key).map Entry.value
  cases he : c.entry? r.name with
  | none =>
    constructor
    · intro h; cases h; exact ⟨fun e h => (by cases h), rfl⟩
    · rintro ⟨-, rfl⟩; rfl
  | some e =>
    -- the names agree, so the types decide
    have hname : e.name = r.key.name := (AttributeSet.entry?_eq_some_iff.mp he).2
    show (r.checkType e.value.type >>= fun _ => pure (some e.value)) = .ok v ↔ _
    rw [bind_eq_ok]
    constructor
    · rintro ⟨⟨⟩, htype, hv⟩
      have htype := checkType_eq_ok.mp htype
      cases hv
      refine ⟨fun e' he' => by cases he'; exact htype.symm, ?_⟩
      rw [Option.filter_some, if_pos (by simp [Entry.key, hname, ← htype])]
      rfl
    · rintro ⟨htyped, rfl⟩
      have htype := htyped e rfl
      refine ⟨(), checkType_eq_ok.mpr htype.symm, ?_⟩
      rw [Option.filter_some, if_pos (by simp [Entry.key, hname, htype])]
      rfl

end Registration

namespace Schema

variable {s : Schema} {a : Attribute} {r : Registration}

/-- A look-up returns the registration of exactly this attribute. -/
theorem registrationOf_eq_ok_iff :
    s.registrationOf a = .ok r ↔ r ∈ s.registrations.toList ∧ r.key = a := by
  unfold registrationOf
  cases hf : s.find? a.name with
  | none =>
    constructor
    · intro h; cases h
    · rintro ⟨hr, rfl⟩
      exact absurd rfl (SortedBy.find?_eq_none_iff.mp hf r hr)
  | some r' =>
    have ⟨hr', hname⟩ := SortedBy.find?_eq_some_iff.mp hf
    show (r'.checkType a.type >>= fun _ => pure r') = .ok r ↔ _
    rw [bind_eq_ok]
    constructor
    · rintro ⟨⟨⟩, htype, hr⟩
      obtain rfl : r' = r := Except.ok.inj hr
      have htype := Registration.checkType_eq_ok.mp htype
      have hname : r'.key.name = a.name := hname
      refine ⟨hr', ?_⟩
      show Attribute.mk r'.key.name r'.key.type = a
      rw [htype, hname]
    · rintro ⟨hr, rfl⟩
      obtain rfl : r' = r := SortedBy.eq_of_key_eq hr' hr hname
      exact ⟨(), Registration.checkType_eq_ok.mpr rfl, rfl⟩

/-- The attributes of the precedence can be looked up. -/
theorem exists_registrationOf (ha : a ∈ s.precedence) : ∃ r, s.registrationOf a = .ok r := by
  obtain ⟨r, hr, hkey⟩ := s.registered a ha
  exact ⟨r, registrationOf_eq_ok_iff.mpr ⟨hr, hkey⟩⟩

section Select

variable {α : Type} {attributes : α → AttributeSet} {request : AttributeSet} {xs us : List α}

/-! ## Compatible candidates -/

/-- The candidates that match, in their order. -/
def matching (s : Schema) (attributes : α → AttributeSet) (request : AttributeSet)
    (xs : List α) : List α :=
  xs.filter fun x => s.isMatch (attributes x) request matches .ok true

theorem mem_matching {x : α} : x ∈ s.matching attributes request xs ↔
    x ∈ xs ∧ s.isMatch (attributes x) request = .ok true := by
  unfold matching
  rw [List.mem_filter]
  refine and_congr_right fun _ => ?_
  split <;> simp_all

theorem compatible_eq_ok_iff : s.compatible attributes request xs = .ok us ↔
    (∀ x ∈ xs, ∃ b, s.isMatch (attributes x) request = .ok b) ∧
      us = s.matching attributes request xs := by
  induction xs generalizing us with
  | nil =>
    rw [compatible]
    exact ⟨fun h => by cases h; exact ⟨fun _ h => (by cases h), rfl⟩, fun ⟨_, h⟩ => h ▸ rfl⟩
  | cons x xs ih =>
    rw [compatible, bind_eq_ok, List.forall_mem_cons, matching, List.filter_cons]
    constructor
    · rintro ⟨b, hb, h⟩
      obtain ⟨rest, hrest, h⟩ := bind_eq_ok.mp h
      obtain ⟨hxs, rfl⟩ := ih.mp hrest
      refine ⟨⟨⟨b, hb⟩, hxs⟩, ?_⟩
      cases h
      rw [hb]
      cases b <;> rfl
    · rintro ⟨⟨⟨b, hb⟩, hxs⟩, rfl⟩
      refine ⟨b, hb, bind_eq_ok.mpr ⟨_, ih.mpr ⟨hxs, rfl⟩, ?_⟩⟩
      rw [hb]
      cases b <;> rfl

/-! ## Carried values -/

/-- The values that candidates carry for an attribute. -/
def carried (attributes : α → AttributeSet) (a : Attribute) (xs : List α) : ValueSet :=
  (xs.filterMap fun x => (attributes x).get? a).foldl (fun values v => values.insert v) .empty

theorem mem_carried {v : Value} :
    v ∈ (carried attributes a xs).toList ↔ ∃ x ∈ xs, (attributes x).get? a = some v := by
  unfold carried
  rw [SortedSet.mem_foldl_insert, List.mem_filterMap]
  exact or_iff_left SortedBy.mem_empty

/-- Values are collected when every candidate has the registered type, or lacks the attribute. -/
theorem carriedValues_eq_ok_iff {vs : ValueSet} : carriedValues attributes r xs = .ok vs ↔
    (∀ x ∈ xs, r.Typed (attributes x)) ∧ vs = carried attributes r.key xs := by
  unfold carriedValues carried
  generalize (SortedBy.empty : ValueSet) = init
  induction xs generalizing init with
  | nil =>
    exact ⟨fun h => by cases h; exact ⟨fun _ h => (by cases h), rfl⟩, fun ⟨_, h⟩ => h ▸ rfl⟩
  | cons x xs ih =>
    rw [List.foldlM_cons, bind_eq_ok, List.forall_mem_cons, List.filterMap_cons]
    constructor
    · rintro ⟨next, hnext, h⟩
      obtain ⟨v, hv, hnext⟩ := bind_eq_ok.mp hnext
      obtain ⟨hx, rfl⟩ := Registration.valueIn?_eq_ok_iff.mp hv
      obtain ⟨hxs, rfl⟩ := (ih next).mp h
      refine ⟨⟨hx, hxs⟩, ?_⟩
      split at hnext
      · next v hget => cases hnext; rw [hget]; rfl
      · next hget => cases hnext; rw [hget]
    · rintro ⟨⟨hx, hxs⟩, h⟩
      have hv := Registration.valueIn?_eq_ok_iff.mpr ⟨hx, rfl⟩
      cases hget : (attributes x).get? r.key with
      | none =>
        rw [hget] at hv h
        exact ⟨init, bind_eq_ok.mpr ⟨none, hv, rfl⟩, (ih init).mpr ⟨hxs, h⟩⟩
      | some v =>
        rw [hget] at hv h
        exact ⟨init.insert v, bind_eq_ok.mpr ⟨some v, hv, rfl⟩, (ih _).mpr ⟨hxs, h⟩⟩

theorem carried_eq_of_mem_iff {β : Type} {attributes' : β → AttributeSet} {ys : List β}
    (h : ∀ c, c ∈ xs.map attributes ↔ c ∈ ys.map attributes') :
    carried attributes a xs = carried attributes' a ys := by
  refine SortedBy.ext_mem fun v => ?_
  rw [mem_carried, mem_carried]
  simp only [List.mem_map] at h
  constructor
  · rintro ⟨x, hx, hv⟩
    obtain ⟨y, hy, he⟩ := (h (attributes x)).mp ⟨x, hx, rfl⟩
    exact ⟨y, hy, he ▸ hv⟩
  · rintro ⟨y, hy, hv⟩
    obtain ⟨x, hx, he⟩ := (h (attributes' y)).mpr ⟨y, hy, rfl⟩
    exact ⟨x, hx, he ▸ hv⟩

/-! ## Rounds -/

/-- The values with which candidates stay: the best of those carried or, if none is best, all. -/
def shortlist (r : Registration) (request : Option Value) (values : ValueSet) : ValueSet :=
  if (bestCarried r request values).isEmpty then values else bestCarried r request values

theorem mem_bestCarried {q : Option Value} {values : ValueSet} {v : Value} :
    v ∈ (bestCarried r q values).toList ↔
      v ∈ (r.preference.best q values).toList ∧ v ∈ values.toList := by
  unfold bestCarried
  rw [SortedBy.mem_filter, SortedSet.contains_iff_mem]

theorem mem_of_mem_shortlist {q : Option Value} {values : ValueSet} {v : Value}
    (h : v ∈ (shortlist r q values).toList) : v ∈ values.toList := by
  unfold shortlist at h
  split at h
  · exact h
  · exact (mem_bestCarried.mp h).2

/-- Some carried value is on the shortlist. -/
theorem exists_mem_shortlist {q : Option Value} {values : ValueSet} {v : Value}
    (h : v ∈ values.toList) : ∃ w, w ∈ (shortlist r q values).toList := by
  unfold shortlist
  split
  · exact ⟨v, h⟩
  · next hne =>
    rw [SortedBy.isEmpty_iff] at hne
    exact not_forall_not.mp hne

/-- Once a carried value is best, the shortlist holds those that are. -/
theorem mem_shortlist_iff_of_mem_best {q : Option Value} {values : ValueSet} {v m : Value}
    (hbest : m ∈ (r.preference.best q values).toList) (hm : m ∈ values.toList) :
    v ∈ (shortlist r q values).toList ↔
      v ∈ (r.preference.best q values).toList ∧ v ∈ values.toList := by
  unfold shortlist
  rw [if_neg, mem_bestCarried]
  rw [SortedBy.isEmpty_iff]
  exact fun hempty => hempty m (mem_bestCarried.mpr ⟨hbest, hm⟩)

/-- The test of a round in which `values` are carried. -/
def stays (r : Registration) (request : Option Value) (values : ValueSet)
    (c : AttributeSet) : Bool :=
  r.preference.isTrivial || (c.get? r.key).all (shortlist r request values).contains

/-- The candidates that a round leaves, in their order. -/
def narrowed (attributes : α → AttributeSet) (r : Registration) (request : Option Value)
    (xs : List α) : List α :=
  xs.filter fun x => stays r request (carried attributes r.key xs) (attributes x)

theorem stays_of_isTrivial {q : Option Value} {values : ValueSet} {c : AttributeSet}
    (h : r.preference.isTrivial = true) : stays r q values c = true := by
  unfold stays
  rw [h, Bool.true_or]

theorem stays_of_get?_eq_none {q : Option Value} {values : ValueSet} {c : AttributeSet}
    (h : c.get? r.key = none) : stays r q values c = true := by
  unfold stays
  rw [h, Option.all_none, Bool.or_true]

theorem stays_iff {q : Option Value} {values : ValueSet} {c : AttributeSet}
    (htrivial : r.preference.isTrivial = false) : stays r q values c = true ↔
      ∀ v, c.get? r.key = some v → v ∈ (shortlist r q values).toList := by
  unfold stays
  rw [htrivial, Bool.false_or, Option.all_eq_true]
  exact forall₂_congr fun v _ => SortedSet.contains_iff_mem

theorem keepCarriers_eq_self {values : ValueSet}
    (h : ∀ v, v ∈ (carried attributes a xs).toList → v ∈ values.toList) :
    keepCarriers attributes a values xs = xs := by
  refine List.filter_eq_self.mpr fun x hx => ?_
  rw [Option.all_eq_true]
  intro v hv
  exact SortedSet.contains_iff_mem.mpr (h v (mem_carried.mpr ⟨x, hx, hv⟩))

/-- The shortcuts of a round skip only what would keep every candidate. -/
theorem shortcuts_eq {q : Option Value} {values : ValueSet}
    (hvalues : values = carried attributes r.key xs) :
    (if values.isEmpty then .ok xs
      else if (bestCarried r q values).isEmpty || (bestCarried r q values).size = values.size then
        .ok xs
      else .ok (keepCarriers attributes r.key (bestCarried r q values) xs) :
        Except MatchError (List α)) =
      .ok (keepCarriers attributes r.key (shortlist r q values) xs) := by
  have hall : keepCarriers attributes r.key values xs = xs :=
    keepCarriers_eq_self fun v hv => hvalues ▸ hv
  unfold shortlist
  -- the three shortcuts: nothing is best, nothing is carried, everything carried is best
  by_cases hbest : (bestCarried r q values).isEmpty
  · rw [if_pos hbest, hbest, hall, Bool.true_or, if_pos rfl, ite_self]
  rw [if_neg hbest]
  by_cases hempty : values.isEmpty
  · rw [if_pos hempty]
    rw [SortedBy.isEmpty_iff, hvalues] at hempty
    rw [keepCarriers_eq_self fun v hv => absurd hv (hempty v)]
  rw [if_neg hempty, Bool.eq_false_iff.mpr hbest, Bool.false_or]
  by_cases hsize : (bestCarried r q values).size = values.size
  · have heq : bestCarried r q values = values :=
      SortedBy.eq_of_size_eq (fun v hv => (mem_bestCarried.mp hv).2) hsize
    rw [if_pos (decide_eq_true hsize), heq, hall]
  · rw [if_neg (by simpa using hsize)]

/-- **A round returns unless a candidate has a value of another type.** -/
theorem narrowBy_eq_ok_iff (hr : s.registrationOf a = .ok r) :
    s.narrowBy attributes request a xs = .ok us ↔
      (r.preference.isTrivial = false → ∀ x ∈ xs, r.Typed (attributes x)) ∧
        us = narrowed attributes r (request.get? a) xs := by
  obtain rfl : r.key = a := (registrationOf_eq_ok_iff.mp hr).2
  unfold narrowBy narrowed stays
  rw [hr]
  show (if r.preference.isTrivial then _ else _) = _ ↔ _
  cases r.preference.isTrivial with
  | true =>
    simp only [if_true, Bool.true_or, List.filter_true]
    exact ⟨fun h => ⟨fun h => (by cases h), (Except.ok.inj h).symm⟩, fun h => h.2 ▸ rfl⟩
  | false =>
    simp only [Bool.false_eq_true, if_false, Bool.false_or, true_implies]
    rw [bind_eq_ok]
    constructor
    · rintro ⟨values, hvalues, h⟩
      obtain ⟨htyped, rfl⟩ := carriedValues_eq_ok_iff.mp hvalues
      exact ⟨htyped, Except.ok.inj (h.symm.trans (shortcuts_eq rfl))⟩
    · rintro ⟨htyped, rfl⟩
      exact ⟨_, carriedValues_eq_ok_iff.mpr ⟨htyped, rfl⟩, shortcuts_eq rfl⟩

/-- Candidates with one attribute set survive every round together. -/
theorem narrowed_of_uniform {q : Option Value}
    (h : ∀ x ∈ xs, ∀ y ∈ xs, attributes x = attributes y) : narrowed attributes r q xs = xs := by
  refine List.filter_eq_self.mpr fun x hx => ?_
  by_cases htrivial : r.preference.isTrivial = true
  · exact stays_of_isTrivial htrivial
  rw [stays_iff (Bool.eq_false_iff.mpr htrivial)]
  intro v hv
  -- the only value that is carried is the one on the shortlist
  obtain ⟨w, hw⟩ := exists_mem_shortlist (r := r) (q := q) (mem_carried.mpr ⟨x, hx, hv⟩)
  obtain ⟨y, hy, hwy⟩ := mem_carried.mp (mem_of_mem_shortlist hw)
  rw [h y hy x hx, hv] at hwy
  cases hwy
  exact hw

/-- **A round never drops every candidate**: one that carries a value of the shortlist stays. -/
theorem narrowed_ne_nil {q : Option Value} (h : xs ≠ []) : narrowed attributes r q xs ≠ [] := by
  obtain ⟨x, hx⟩ := List.exists_mem_of_ne_nil xs h
  suffices hstays : ∃ y ∈ xs, stays r q (carried attributes r.key xs) (attributes y) = true by
    obtain ⟨y, hy, hstays⟩ := hstays
    exact List.ne_nil_of_mem (List.mem_filter.mpr ⟨hy, hstays⟩)
  by_cases htrivial : r.preference.isTrivial = true
  · exact ⟨x, hx, stays_of_isTrivial htrivial⟩
  · have htrivial : r.preference.isTrivial = false := Bool.eq_false_iff.mpr htrivial
    cases hget : (attributes x).get? r.key with
    | none => exact ⟨x, hx, stays_of_get?_eq_none hget⟩
    | some v =>
      obtain ⟨w, hw⟩ := exists_mem_shortlist (r := r) (q := q) (mem_carried.mpr ⟨x, hx, hget⟩)
      obtain ⟨y, hy, hwy⟩ := mem_carried.mp (mem_of_mem_shortlist hw)
      refine ⟨y, hy, (stays_iff htrivial).mpr fun v' hv' => ?_⟩
      rw [hwy] at hv'
      cases hv'
      exact hw

/-! ## All rounds -/

/-- The candidates that the rounds of some attributes leave, if none is skipped. -/
def survivors (s : Schema) (attributes : α → AttributeSet) (request : AttributeSet) :
    List Attribute → List α → List α
  | [], xs => xs
  | a :: as, xs =>
    match s.registrationOf a with
    | .ok r => survivors s attributes request as (narrowed attributes r (request.get? a) xs)
    | .error _ => survivors s attributes request as xs

theorem survivors_cons (hr : s.registrationOf a = .ok r) {as : List Attribute} :
    s.survivors attributes request (a :: as) xs =
      s.survivors attributes request as (narrowed attributes r (request.get? a) xs) := by
  rw [survivors, hr]

theorem survivors_append {as bs : List Attribute} :
    s.survivors attributes request (as ++ bs) xs =
      s.survivors attributes request bs (s.survivors attributes request as xs) := by
  induction as generalizing xs with
  | nil => rfl
  | cons a as ih =>
    rw [List.cons_append, survivors, survivors]
    split <;> exact ih

theorem survivors_of_uniform {as : List Attribute}
    (h : ∀ x ∈ xs, ∀ y ∈ xs, attributes x = attributes y) :
    s.survivors attributes request as xs = xs := by
  induction as with
  | nil => rfl
  | cons a as ih =>
    rw [survivors]
    split
    · rw [narrowed_of_uniform h, ih]
    · exact ih

theorem survivors_ne_nil {as : List Attribute} (h : xs ≠ []) :
    s.survivors attributes request as xs ≠ [] := by
  induction as generalizing xs with
  | nil => exact h
  | cons a as ih =>
    rw [survivors]
    split
    · exact ih (narrowed_ne_nil h)
    · exact ih h

/-- **Stopping early changes nothing**: the last candidate survives all of the rounds. -/
theorem narrow_eq_survivors {as : List Attribute}
    (h : s.narrow attributes request as xs = .ok us) :
    us = s.survivors attributes request as xs := by
  induction as generalizing xs with
  | nil => exact (Except.ok.inj h).symm
  | cons a as ih =>
    rw [narrow] at h
    split at h
    · next hlength =>
      -- one candidate or none is left
      rw [survivors_of_uniform]
      · exact (Except.ok.inj h).symm
      · intro x hx y hy
        match xs, hlength with
        | [z], _ => rw [List.mem_singleton.mp hx, List.mem_singleton.mp hy]
    · obtain ⟨next, hnext, h⟩ := bind_eq_ok.mp h
      obtain ⟨r, hr, -⟩ := bind_eq_ok.mp hnext
      obtain ⟨-, rfl⟩ := (narrowBy_eq_ok_iff hr).mp hnext
      rw [survivors_cons hr]
      exact ih h

theorem narrow_of_length_le_one {as : List Attribute} (h : xs.length ≤ 1) :
    s.narrow attributes request as xs = .ok xs := by
  cases as with
  | nil => rfl
  | cons a as => rw [narrow, if_pos h]; rfl

theorem select_eq_ok_iff : s.select attributes xs request = .ok us ↔
    s.checkRequest request.entries = .ok () ∧
      (∀ x ∈ xs, ∃ b, s.isMatch (attributes x) request = .ok b) ∧
      s.narrow attributes request s.precedence (s.matching attributes request xs) = .ok us := by
  unfold select
  rw [bind_eq_ok]
  have hlast : (if (s.matching attributes request xs).length ≤ 1 then
      return s.matching attributes request xs
      else s.narrow attributes request s.precedence (s.matching attributes request xs)) =
      s.narrow attributes request s.precedence (s.matching attributes request xs) := by
    split
    · next h => exact (narrow_of_length_le_one h).symm
    · rfl
  constructor
  · rintro ⟨⟨⟩, hrequest, h⟩
    obtain ⟨ms, hms, h⟩ := bind_eq_ok.mp h
    obtain ⟨hmatch, rfl⟩ := compatible_eq_ok_iff.mp hms
    exact ⟨hrequest, hmatch, hlast.symm.trans h⟩
  · rintro ⟨hrequest, hmatch, h⟩
    exact ⟨(), hrequest,
      bind_eq_ok.mpr ⟨_, compatible_eq_ok_iff.mpr ⟨hmatch, rfl⟩, hlast.trans h⟩⟩

/-- **A selection that returns leaves the survivors of the precedence.** -/
theorem select_eq_survivors (h : s.select attributes xs request = .ok us) :
    us = s.survivors attributes request s.precedence (s.matching attributes request xs) :=
  narrow_eq_survivors (select_eq_ok_iff.mp h).2.2

/-- **Nothing is selected only when no candidate matches.** -/
theorem isMatch_of_select_eq_nil (h : s.select attributes xs request = .ok []) :
    ∀ x ∈ xs, s.isMatch (attributes x) request = .ok false := by
  have hmatching : s.matching attributes request xs = [] := by
    by_contra hne
    exact survivors_ne_nil hne (select_eq_survivors h).symm
  intro x hx
  obtain ⟨b, hb⟩ := (select_eq_ok_iff.mp h).2.1 x hx
  cases b with
  | false => exact hb
  | true =>
    have hmem := mem_matching.mpr ⟨hx, hb⟩
    rw [hmatching] at hmem
    cases hmem

end Select

end Schema

end BuildInputs

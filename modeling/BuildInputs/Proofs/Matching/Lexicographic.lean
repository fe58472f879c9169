import BuildInputs.Proofs.Matching.Rounds

/-!
# A selection is lexicographic minimisation

A built-in preference gives every value a rank (`Preference.rank`). A round keeps the candidates of
least rank, so the rounds together keep those whose ranks, read in the order of the precedence, are
lexicographically least.

* `Preference.mem_shortlist_iff` : the shortlist of a round holds the carried values of least rank.
* `narrowed_eq_leastBy` : one round is a minimisation.
* `leastBy_cons` : two minimisations, one after the other, are a lexicographic one.
* `select_eq_leastBy` : the property of whole selections.
-/

namespace BuildInputs

/-! ## Ranks -/

/-- How good a value is: the lesser, the better. -/
structure Rank where
  place : Nat
  /-- In one place, higher values come first. -/
  high : Option Value := none
  /-- After them, lower values come first. -/
  low : Option Value := none
deriving DecidableEq

namespace Rank

instance : Ord Rank :=
  ⟨compareLex (compareOn place) <|
    compareLex (fun r r' => compareOn high r' r) (compareOn low)⟩

instance : Std.TransOrd Rank :=
  have : Std.TransCmp fun r r' : Rank => compareOn high r' r := Std.TransCmp.opposite
  inferInstanceAs (Std.TransCmp (compareLex _ _))

theorem compare_eq_lt_of_place {r r' : Rank} (h : r.place < r'.place) : compare r r' = .lt := by
  show (compare r.place r'.place).then _ = .lt
  rw [Nat.compare_eq_lt.mpr h]
  rfl

/-- Of two values in one place the higher is better by `high`. -/
theorem compare_high {n : Nat} {v w : Value} :
    compare ({ place := n, high := some v } : Rank) { place := n, high := some w } =
      compare w v := by
  show (compare n n).then ((compare w v).then .eq) = compare w v
  rw [Std.ReflOrd.compare_self, Ordering.eq_then, Ordering.then_eq]

/-- Of two values in one place the lower is better by `low`. -/
theorem compare_low {n : Nat} {v w : Value} :
    compare ({ place := n, low := some v } : Rank) { place := n, low := some w } =
      compare v w := by
  show (compare n n).then (compare v w) = compare v w
  rw [Std.ReflOrd.compare_self, Ordering.eq_then]

end Rank

theorem Value.compare_eq_lt {v w : Value} (h : (compare v w).isLE) (hne : v ≠ w) :
    compare v w = .lt :=
  (Ordering.isLE_iff_eq_lt_or_eq_eq.mp h).resolve_right fun he =>
    hne (Std.LawfulEqOrd.eq_of_compare he)

namespace Preference

/-- The rules other than `custom`. -/
def isBuiltIn : Preference → Bool
  | custom _ _ _ => false
  | _ => true

/-- The rank of a value by a built-in rule. A requested value is best, unless all are equal. -/
def rank (rule : Preference) (request : Option Value) (v : Value) : Rank :=
  match rule with
  | indifferent | custom _ _ _ => { place := 0 }
  | requested => if request = some v then { place := 0 } else { place := 1 }
  | highest => if request = some v then { place := 0 } else { place := 1, high := some v }
  | lowest => if request = some v then { place := 0 } else { place := 1, low := some v }
  | listed order => if request = some v then { place := 0 } else { place := 1 + order.idxOf v }

/-! ## The shortlist holds the least ranks -/

variable {rule : Preference} {q : Option Value} {values : ValueSet} {v w m : Value}

theorem exactMatch_eq_some (hm : m ∈ values.toList) :
    exactMatch (some m) values = some (.singleton m) := by
  unfold exactMatch
  rw [Option.filter_some, if_pos (SortedSet.contains_iff_mem.mpr hm)]
  rfl

theorem exactMatch_eq_none (h : ∀ v ∈ values.toList, q ≠ some v) : exactMatch q values = none := by
  cases q with
  | none => rfl
  | some r =>
    unfold exactMatch
    rw [Option.filter_some, if_neg fun hr => h r (SortedSet.contains_iff_mem.mp hr) rfl]
    rfl

/-- One value alone is best, and its rank is the least. -/
def Picks (rule : Preference) (q : Option Value) (values : ValueSet) (m : Value) : Prop :=
  m ∈ values.toList ∧ rule.best q values = .singleton m ∧
    ∀ w ∈ values.toList, w ≠ m → compare (rule.rank q m) (rule.rank q w) = .lt

/-- All values are best, and their ranks are equal. -/
def KeepsAll (rule : Preference) (q : Option Value) (values : ValueSet) : Prop :=
  rule.best q values = values ∧
    ∀ v ∈ values.toList, ∀ w ∈ values.toList, rule.rank q v = rule.rank q w

theorem picks_requested (hbuiltIn : rule.isBuiltIn = true) (hrule : rule.isTrivial = false)
    (hm : m ∈ values.toList) : rule.Picks (some m) values m := by
  have hexact := exactMatch_eq_some hm
  refine ⟨hm, ?_, fun w _ hw => Rank.compare_eq_lt_of_place ?_⟩
  · cases rule with
    | indifferent => cases hrule
    | custom => cases hbuiltIn
    | requested | highest | lowest | listed => rw [best, hexact]; rfl
  · have hw : some m ≠ some w := fun h => hw (Option.some.inj h).symm
    cases rule with
    | indifferent => cases hrule
    | custom => cases hbuiltIn
    | requested | highest | lowest => rw [rank, rank, if_pos rfl, if_neg hw]; exact Nat.one_pos
    | listed order => rw [rank, rank, if_pos rfl, if_neg hw]; exact Nat.add_pos_left Nat.one_pos _

section Unrequested

variable (hq : ∀ v ∈ values.toList, q ≠ some v)
include hq

theorem requested_keepsAll : requested.KeepsAll q values := by
  refine ⟨by rw [best, exactMatch_eq_none hq]; rfl, fun v hv w hw => ?_⟩
  rw [rank, rank, if_neg (hq v hv), if_neg (hq w hw)]

theorem highest_picks (hm : values.max? = some m) : highest.Picks q values m := by
  obtain ⟨hmem, hmax⟩ := SortedBy.max?_eq_some hm
  refine ⟨hmem, by rw [best, exactMatch_eq_none hq, hm]; rfl, fun w hw hne => ?_⟩
  rw [rank, rank, if_neg (hq m hmem), if_neg (hq w hw), Rank.compare_high]
  exact Value.compare_eq_lt (hmax w hw) hne

theorem lowest_picks (hm : values.min? = some m) : lowest.Picks q values m := by
  obtain ⟨hmem, hmin⟩ := SortedBy.min?_eq_some hm
  refine ⟨hmem, by rw [best, exactMatch_eq_none hq, hm]; rfl, fun w hw hne => ?_⟩
  rw [rank, rank, if_neg (hq m hmem), if_neg (hq w hw), Rank.compare_low]
  exact Value.compare_eq_lt (hmin w hw) hne.symm

/-- Of the listed values that are carried, the first is found before all others. -/
theorem listed_picks {order : List Value} (hm : order.find? values.contains = some m) :
    (listed order).Picks q values m := by
  have hmem : m ∈ values.toList := SortedSet.contains_iff_mem.mp (List.find?_some hm)
  refine ⟨hmem, by rw [best, exactMatch_eq_none hq, hm]; rfl, fun w hw hne => ?_⟩
  rw [rank, rank, if_neg (hq m hmem), if_neg (hq w hw)]
  obtain ⟨-, front, back, rfl, hfront⟩ := List.find?_eq_some_iff_append.mp hm
  -- nothing that is carried is listed before it
  have hnot {v : Value} (hv : v ∈ values.toList) : v ∉ front := fun hin => by
    have := hfront v hin
    rw [SortedSet.contains_iff_mem.mpr hv] at this
    cases this
  apply Rank.compare_eq_lt_of_place
  show 1 + (front ++ m :: back).idxOf m < 1 + (front ++ m :: back).idxOf w
  rw [List.idxOf_append, List.idxOf_append, if_neg (hnot hmem), if_neg (hnot hw),
    List.idxOf_cons_self, List.idxOf_cons_ne _ hne.symm]
  omega

theorem listed_keepsAll {order : List Value} (h : order.find? values.contains = none) :
    (listed order).KeepsAll q values := by
  have hplace {v : Value} (hv : v ∈ values.toList) : order.idxOf v = order.length := by
    refine List.idxOf_eq_length fun hin => ?_
    exact List.find?_eq_none.mp h v hin (SortedSet.contains_iff_mem.mpr hv)
  refine ⟨by rw [best, exactMatch_eq_none hq, h]; rfl, fun v hv w hw => ?_⟩
  rw [rank, rank, if_neg (hq v hv), if_neg (hq w hw), hplace hv, hplace hw]

end Unrequested

/-- **A built-in rule picks one value or keeps all.** -/
theorem picks_or_keepsAll (hbuiltIn : rule.isBuiltIn = true) (hv : v ∈ values.toList) :
    (∃ m, rule.Picks q values m) ∨ rule.KeepsAll q values := by
  by_cases htrivial : rule.isTrivial = true
  · cases rule with
    | indifferent => exact Or.inr ⟨rfl, fun _ _ _ _ => rfl⟩
    | custom => cases hbuiltIn
    | requested | highest | lowest | listed => cases htrivial
  by_cases hq : ∃ m ∈ values.toList, q = some m
  · obtain ⟨m, hm, rfl⟩ := hq
    exact Or.inl ⟨m, picks_requested hbuiltIn (Bool.eq_false_iff.mpr htrivial) hm⟩
  -- no requested value is carried, so each rule falls back on its own order
  have hq : ∀ v ∈ values.toList, q ≠ some v := fun m hm he => hq ⟨m, hm, he⟩
  cases rule with
  | indifferent => exact absurd rfl htrivial
  | custom => cases hbuiltIn
  | requested => exact Or.inr (requested_keepsAll hq)
  | highest =>
    obtain ⟨m, hm⟩ := SortedBy.exists_max? hv
    exact Or.inl ⟨m, highest_picks hq hm⟩
  | lowest =>
    obtain ⟨m, hm⟩ := SortedBy.exists_min? hv
    exact Or.inl ⟨m, lowest_picks hq hm⟩
  | listed order =>
    cases hm : order.find? values.contains with
    | none => exact Or.inr (listed_keepsAll hq hm)
    | some m => exact Or.inl ⟨m, listed_picks hq hm⟩

end Preference

/-! ## Minimisation -/

/-- The elements of least key, in their order. -/
def leastBy {α κ : Type} [Ord κ] (key : α → κ) (xs : List α) : List α :=
  xs.filter fun x => xs.all fun y => (compare (key x) (key y)).isLE

/-- **Minimising by a key and then by others minimises lexicographically.** -/
theorem leastBy_cons {α κ : Type} [Ord κ] [Std.TransOrd κ] {key : α → κ} {keys : α → List κ}
    {xs : List α} : leastBy (fun x => key x :: keys x) xs = leastBy keys (leastBy key xs) := by
  unfold leastBy
  rw [List.filter_filter]
  refine List.filter_congr fun x hx => ?_
  rw [Bool.eq_iff_iff, Bool.and_eq_true]
  simp only [List.all_eq_true, List.mem_filter, List.compare_cons_cons, Ordering.isLE_then_iff_and]
  constructor
  · intro h
    refine ⟨?_, fun y hy => (h y hy).1⟩
    rintro y ⟨hy, hleast⟩
    -- the other is no better by the first key, hence equal in it
    refine (h y hy).2.resolve_left fun hlt => ?_
    exact Std.OrientedCmp.not_isLE_of_lt hlt (hleast x hx)
  · rintro ⟨hkeys, hkey⟩ y hy
    refine ⟨hkey y hy, ?_⟩
    rcases Ordering.isLE_iff_eq_lt_or_eq_eq.mp (hkey y hy) with hlt | heq
    · exact Or.inl hlt
    · -- equal keys, so the other has the least key too
      refine Or.inr (hkeys y ⟨hy, fun z hz => ?_⟩)
      have hback : (compare (key y) (key x)).isLE :=
        Ordering.isLE_of_eq_eq (Std.OrientedCmp.eq_symm heq)
      exact Std.TransCmp.isLE_trans hback (hkey z hz)

namespace Schema

variable {α : Type} {attributes : α → AttributeSet} {s : Schema} {request c : AttributeSet}
  {a : Attribute} {r : Registration} {xs us : List α} {q : Option Value} {values : ValueSet}
  {v : Value}

/-! ## One round -/

/-- **The shortlist holds the carried values of least rank.** -/
theorem mem_shortlist_iff (hbuiltIn : r.preference.isBuiltIn = true) (hv : v ∈ values.toList) :
    v ∈ (shortlist r q values).toList ↔
      ∀ w ∈ values.toList, (compare (r.preference.rank q v) (r.preference.rank q w)).isLE := by
  rcases Preference.picks_or_keepsAll (q := q) hbuiltIn hv with
    ⟨m, hm, hbest, hleast⟩ | ⟨hbest, hall⟩
  · have hmem : m ∈ (r.preference.best q values).toList := by
      rw [hbest]; exact SortedBy.mem_singleton.mpr rfl
    rw [mem_shortlist_iff_of_mem_best hmem hm, hbest, SortedBy.mem_singleton]
    constructor
    · rintro ⟨rfl, -⟩ w hw
      by_cases hne : w = v
      · rw [hne]; exact Std.ReflOrd.isLE_rfl
      · exact Ordering.isLE_of_eq_lt (hleast w hw hne)
    · intro h
      refine ⟨?_, hv⟩
      by_cases hne : v = m
      · exact hne
      · exact absurd (h m hm) (Std.OrientedCmp.not_isLE_of_lt (hleast v hv hne))
  · rw [mem_shortlist_iff_of_mem_best (by rw [hbest]; exact hv) hv, hbest]
    refine ⟨fun _ w hw => ?_, fun _ => ⟨hv, hv⟩⟩
    rw [hall v hv w hw]
    exact Std.ReflOrd.isLE_rfl

theorem stays_iff_mem_shortlist (hbuiltIn : r.preference.isBuiltIn = true)
    (hget : c.get? r.key = some v) (hv : v ∈ values.toList) :
    stays r q values c = true ↔ v ∈ (shortlist r q values).toList := by
  by_cases htrivial : r.preference.isTrivial = true
  · have hindifferent : r.preference.best q values = values := by
      cases hrule : r.preference with
      | indifferent => rfl
      | custom => rw [hrule] at hbuiltIn; cases hbuiltIn
      | requested | highest | lowest | listed => rw [hrule] at htrivial; cases htrivial
    rw [mem_shortlist_iff_of_mem_best (by rw [hindifferent]; exact hv) hv, hindifferent, stays,
      htrivial]
    exact ⟨fun _ => ⟨hv, hv⟩, fun _ => rfl⟩
  · rw [stays_iff (Bool.eq_false_iff.mpr htrivial), hget]
    exact ⟨fun h => h v rfl, fun h w hw => by cases hw; exact h⟩

/-- The rank of an attribute set by one attribute. -/
def rankBy (s : Schema) (request c : AttributeSet) (a : Attribute) : Option Rank := do
  let r ← s.find? a.name
  let v ← c.get? a
  return r.preference.rank (request.get? a) v

theorem rankBy_eq (hr : s.registrationOf a = .ok r) (hv : c.get? a = some v) :
    s.rankBy request c a = some (r.preference.rank (request.get? a) v) := by
  obtain ⟨hmem, rfl⟩ := registrationOf_eq_ok_iff.mp hr
  have hfind : s.find? r.key.name = some r := SortedBy.find?_eq_some_iff.mpr ⟨hmem, rfl⟩
  unfold rankBy
  rw [hfind, hv]
  rfl

/-- **A round keeps the candidates of least rank**, if all carry its attribute. -/
theorem narrowed_eq_leastBy (hr : s.registrationOf a = .ok r)
    (hbuiltIn : r.preference.isBuiltIn = true)
    (hcarry : ∀ x ∈ xs, ∃ v, (attributes x).get? a = some v) :
    narrowed attributes r (request.get? a) xs =
      leastBy (fun x => s.rankBy request (attributes x) a) xs := by
  obtain rfl : r.key = a := (registrationOf_eq_ok_iff.mp hr).2
  refine List.filter_congr fun x hx => ?_
  obtain ⟨v, hv⟩ := hcarry x hx
  have hmem := mem_carried.mpr ⟨x, hx, hv⟩
  rw [Bool.eq_iff_iff, stays_iff_mem_shortlist hbuiltIn hv hmem, mem_shortlist_iff hbuiltIn hmem,
    List.all_eq_true]
  show _ ↔ ∀ y ∈ xs, (compare (s.rankBy request (attributes x) r.key)
    (s.rankBy request (attributes y) r.key)).isLE
  rw [rankBy_eq hr hv]
  constructor
  · intro h y hy
    obtain ⟨w, hw⟩ := hcarry y hy
    rw [rankBy_eq hr hw]
    exact h w (mem_carried.mpr ⟨y, hy, hw⟩)
  · intro h w hw
    obtain ⟨y, hy, hw⟩ := mem_carried.mp hw
    have := h y hy
    rw [rankBy_eq hr hw] at this
    exact this

/-! ## All rounds -/

theorem survivors_eq_leastBy {as : List Attribute}
    (hregistered : ∀ a ∈ as, ∃ r, s.registrationOf a = .ok r)
    (hbuiltIn : ∀ r ∈ s.registrations.toList, r.preference.isBuiltIn = true)
    (hcarry : ∀ x ∈ xs, ∀ a ∈ as, ∃ v, (attributes x).get? a = some v) :
    s.survivors attributes request as xs =
      leastBy (fun x => as.map (s.rankBy request (attributes x))) xs := by
  induction as generalizing xs with
  | nil => exact (List.filter_eq_self.mpr fun x _ => List.all_eq_true.mpr fun _ _ => rfl).symm
  | cons a as ih =>
    obtain ⟨hmem, hregistered⟩ := List.forall_mem_cons.mp hregistered
    obtain ⟨r, hr⟩ := hmem
    have hnarrowed : narrowed attributes r (request.get? a) xs =
        leastBy (fun x => s.rankBy request (attributes x) a) xs :=
      narrowed_eq_leastBy hr (hbuiltIn r (registrationOf_eq_ok_iff.mp hr).1) fun x hx =>
        hcarry x hx a List.mem_cons_self
    rw [survivors_cons hr, ih hregistered, hnarrowed]
    · exact leastBy_cons.symm
    · intro x hx b hb
      exact hcarry x (List.mem_of_mem_filter hx) b (List.mem_cons_of_mem a hb)

/-- The ranks of an attribute set in the order of the precedence. -/
def ranks (s : Schema) (request c : AttributeSet) : List (Option Rank) :=
  s.precedence.map (s.rankBy request c)

/--
**A selection minimises lexicographically.** If the preferences are built in and every matching
candidate carries all attributes of the precedence, a selection that returns leaves exactly the
matching candidates whose ranks are lexicographically least, in their order.
-/
theorem select_eq_leastBy (s : Schema) (attributes : α → AttributeSet) (request : AttributeSet)
    (xs us : List α) (hbuiltIn : ∀ r ∈ s.registrations.toList, r.preference.isBuiltIn = true)
    (hcarry : ∀ x ∈ xs, s.isMatch (attributes x) request = .ok true →
      ∀ a ∈ s.precedence, ((attributes x).get? a).isSome = true)
    (h : s.select attributes xs request = .ok us) :
    us = leastBy (fun x => s.ranks request (attributes x)) (s.matching attributes request xs) := by
  rw [select_eq_survivors h]
  refine survivors_eq_leastBy (fun a ha => exists_registrationOf ha) hbuiltIn fun x hx a ha => ?_
  obtain ⟨hx, hmatch⟩ := mem_matching.mp hx
  exact Option.isSome_iff_exists.mp (hcarry x hx hmatch a ha)

/-- A schema in which the packaging decides before the level. -/
def packagingSchema : Schema :=
  let packaging : Attribute := ⟨"packaging", .string⟩
  let level : Attribute := ⟨"level", .integer⟩
  let draft : SchemaDraft := {
    registrations := [
      { key := packaging, preference := .listed [.string "shadowed", .string "external"] },
      { key := level, compatibility := .atMost, preference := .highest }]
    precedence := some [packaging, level] }
  draft.freeze (by decide)

def packaged (packaging : String) (level : Int64) : AttributeSet :=
  .ofList [⟨"packaging", .string packaging⟩, ⟨"level", .integer level⟩]

theorem select_eq_leastBy_packaged :
    [packaged "shadowed" 11] =
      leastBy (packagingSchema.ranks .empty) (packagingSchema.matching id .empty
        [packaged "external" 17, packaged "shadowed" 8, packaged "shadowed" 11]) := by
  refine select_eq_leastBy packagingSchema id .empty _ _ (by decide) (fun x hx _ => ?_) (by rfl)
  revert x
  decide

end Schema

end BuildInputs

import Mathlib.Tactic.MkIffOfInductiveProp
import BuildInputs.Proofs.Attribute.Order

/-!
# Precedence of versions

Precedence goes from left to right: the three numbers, then a pre-release before its release, then
the pre-release identifiers one by one, of which numbers are compared by value and precede words,
and words are compared in the order of ASCII; if all of them are equal, fewer identifiers precede
more. Build metadata has no part in it.

The order of versions is a refinement of precedence to a total order. Versions of the same
precedence are ordered by their build identifiers, which may have leading zeros: numbers of one
value are ordered by the number of their digits.

* `Identifier.compare_eq_lt_iff`, `compare_list_eq_lt_iff` : identifiers, and lists of them.
* `Version.comparePrecedence_eq_lt_iff` : the part of the order that is precedence.
* `Version.compare_eq_lt_iff` : the whole order.
-/

namespace BuildInputs

/-! ## Lists -/

/-- Lists are compared at the first place where they differ; a list follows its beginnings. -/
theorem compare_list_eq_lt_iff {α : Type} [Ord α] [Std.LawfulEqOrd α] {xs ys : List α} :
    compare xs ys = .lt ↔ List.Lex (fun x y => compare x y = .lt) xs ys := by
  induction xs generalizing ys with
  | nil =>
    cases ys with
    | nil => exact iff_of_false (fun h => (by cases h)) List.not_lex_nil
    | cons y ys => exact iff_of_true rfl .nil
  | cons x xs ih =>
    cases ys with
    | nil => exact iff_of_false (fun h => (by cases h)) List.not_lex_nil
    | cons y ys =>
      rw [List.compare_eq_compareLex, List.compareLex_cons_cons, Ordering.then_eq_lt,
        ← List.compare_eq_compareLex, ih, List.cons_lex_cons_iff, Std.compare_eq_iff_eq]

theorem lex_map_iff {α β : Type} {r : β → β → Prop} {f : α → β} (hf : f.Injective)
    {xs ys : List α} :
    List.Lex r (xs.map f) (ys.map f) ↔ List.Lex (fun x y => r (f x) (f y)) xs ys := by
  induction xs generalizing ys with
  | nil =>
    cases ys with
    | nil => exact iff_of_false List.not_lex_nil List.not_lex_nil
    | cons y ys => exact iff_of_true .nil .nil
  | cons x xs ih =>
    cases ys with
    | nil => exact iff_of_false List.not_lex_nil List.not_lex_nil
    | cons y ys =>
      rw [List.map_cons, List.map_cons, List.cons_lex_cons_iff, List.cons_lex_cons_iff, ih,
        hf.eq_iff]

/-! ## Identifiers -/

namespace Identifier

/-- Precedence of identifiers. -/
@[mk_iff]
inductive Precedes (i j : Identifier) : Prop
  /-- Numbers are compared by value. -/
  | numbers (hi : i.isNumeric = true) (hj : j.isNumeric = true)
    (h : Decimal.value i.chars < Decimal.value j.chars)
  /-- A number precedes a word. -/
  | numberWord (hi : i.isNumeric = true) (hj : j.isNumeric = false)
  /-- Words are compared by their characters. -/
  | words (hi : i.isNumeric = false) (hj : j.isNumeric = false) (h : i.text < j.text)

/-- The total order of identifiers. -/
@[mk_iff]
inductive Lower (i j : Identifier) : Prop
  | precedes (h : i.Precedes j)
  /-- Of two numbers of one value the shorter is lower. -/
  | shorter (hi : i.isNumeric = true) (hj : j.isNumeric = true)
    (hvalue : Decimal.value i.chars = Decimal.value j.chars) (h : i.chars.length < j.chars.length)

variable {i j : Identifier}

theorem compare_numbers (hi : i.isNumeric = true) (hj : j.isNumeric = true) :
    compare i j = (compare (Decimal.value i.chars) (Decimal.value j.chars)).then
      (compare i.chars.length j.chars.length) := by
  show compare i.sortKey j.sortKey = _
  unfold sortKey
  rw [if_pos hi, if_pos hj]
  simp only [List.compare_eq_compareLex, List.compareLex_cons_cons, List.compareLex_nil_nil,
    Std.ReflOrd.compare_self, Ordering.eq_then, Ordering.then_eq]

theorem compare_words (hi : i.isNumeric = false) (hj : j.isNumeric = false) :
    compare i j = .lt ↔ i.text < j.text := by
  have hkey : compare i j = compare (i.chars.map Char.toNat) (j.chars.map Char.toNat) := by
    show compare i.sortKey j.sortKey = _
    unfold sortKey
    rw [hi, hj]
    show (compare (1 : Nat) 1).then _ = _
    rw [Std.ReflOrd.compare_self, Ordering.eq_then]
    rfl
  have htext : i.text < j.text ↔ List.Lex (fun c d => c < d) i.chars j.chars := by
    rw [String.lt_iff, text, text, String.toList_ofList, String.toList_ofList]
    rfl
  rw [hkey, compare_list_eq_lt_iff, lex_map_iff fun _ _ => Char.toNat_inj.mp, htext]
  simp only [Nat.compare_eq_lt]
  rfl

/-- **The order of identifiers.** -/
theorem compare_eq_lt_iff : compare i j = .lt ↔ i.Lower j := by
  cases hi : i.isNumeric <;> cases hj : j.isNumeric
  case false.false => simp [compare_words hi hj, lower_iff, precedes_iff, hi, hj]
  case true.true =>
    simp [compare_numbers hi hj, Ordering.then_eq_lt, Nat.compare_eq_lt, lower_iff, precedes_iff,
      hi, hj]
  case true.false =>
    have hlt : compare i j = .lt := by
      show compare i.sortKey j.sortKey = .lt
      simp only [sortKey, hi, hj]
      rfl
    simp [hlt, lower_iff, precedes_iff, hi, hj]
  case false.true =>
    have hgt : compare i j = .gt := by
      show compare i.sortKey j.sortKey = .gt
      simp only [sortKey, hi, hj]
      rfl
    simp [hgt, lower_iff, precedes_iff, hi, hj]

/-- A number that is canonical is written without leading zeros. -/
theorem chars_eq_toDigits (hcanonical : i.isCanonical = true) (hi : i.isNumeric = true) :
    i.chars = Nat.toDigits 10 (Decimal.value i.chars) := by
  have hlead : Decimal.NoLeadingZero i.chars := fun hhead => by
    simpa [isCanonical, hi, hhead] using hcanonical
  exact (Decimal.toDigits_value i.nonempty hi hlead).symm

/-- **Among the identifiers of pre-releases the total order is precedence.** -/
theorem lower_iff_precedes (hi : i.isCanonical = true) (hj : j.isCanonical = true) :
    i.Lower j ↔ i.Precedes j := by
  constructor
  · rintro (h | ⟨hi', hj', hvalue, h⟩)
    · exact h
    · -- canonical numbers of one value are written with the same digits
      rw [chars_eq_toDigits hi hi', chars_eq_toDigits hj hj', hvalue] at h
      exact absurd h (Nat.lt_irrefl _)
  · exact .precedes

end Identifier

/-! ## Versions -/

namespace Version

/-- Versions that differ in their build metadata at most. -/
structure SamePrecedence (v w : Version) : Prop where
  major : v.major = w.major
  minor : v.minor = w.minor
  patch : v.patch = w.patch
  prerelease : v.prerelease = w.prerelease

/-- Precedence of versions. -/
inductive Precedes (v w : Version) : Prop
  | major (h : v.major < w.major)
  | minor (hmajor : v.major = w.major) (h : v.minor < w.minor)
  | patch (hmajor : v.major = w.major) (hminor : v.minor = w.minor) (h : v.patch < w.patch)
  /-- A pre-release precedes the release. -/
  | release (hmajor : v.major = w.major) (hminor : v.minor = w.minor) (hpatch : v.patch = w.patch)
    (hv : v.prerelease ≠ []) (hw : w.prerelease = [])
  /-- Pre-releases are compared by their identifiers; of equal ones, fewer precede more. -/
  | prerelease (hmajor : v.major = w.major) (hminor : v.minor = w.minor)
    (hpatch : v.patch = w.patch) (hv : v.prerelease ≠ [])
    (h : List.Lex Identifier.Precedes v.prereleaseKey w.prereleaseKey)

/-- Versions of the same precedence, the first of which has lower build metadata. -/
structure LowerByBuild (v w : Version) : Prop where
  samePrecedence : v.SamePrecedence w
  build : List.Lex Identifier.Lower v.build w.build

/-- The part of the order of versions that comes before the build metadata. -/
def comparePrecedence : Version → Version → Ordering :=
  compareLex (compareOn major) <| compareLex (compareOn minor) <| compareLex (compareOn patch) <|
    compareLex (compareOn isRelease) (compareOn prereleaseKey)

instance : Std.TransCmp comparePrecedence := inferInstanceAs (Std.TransCmp (compareLex _ _))

variable {v w : Version}

theorem compare_eq_then :
    compare v w = (comparePrecedence v w).then (compare v.build w.build) := by
  simp only [comparePrecedence, compareLex, Ordering.then_assoc]
  rfl

theorem lex_prereleaseKey_iff :
    List.Lex Identifier.Lower v.prereleaseKey w.prereleaseKey ↔
      List.Lex Identifier.Precedes v.prereleaseKey w.prereleaseKey := by
  have hcanonical : (fun p q : PrereleaseIdentifier => p.val.Lower q.val) =
      fun p q => p.val.Precedes q.val :=
    funext₂ fun p q => propext (Identifier.lower_iff_precedes p.property q.property)
  unfold prereleaseKey
  rw [lex_map_iff Subtype.val_injective, lex_map_iff Subtype.val_injective, hcanonical]

theorem compare_prereleaseKey_eq_lt_iff : compare v.prereleaseKey w.prereleaseKey = .lt ↔
    List.Lex Identifier.Precedes v.prereleaseKey w.prereleaseKey := by
  rw [compare_list_eq_lt_iff, ← lex_prereleaseKey_iff]
  simp only [Identifier.compare_eq_lt_iff]

theorem compare_isRelease_eq_lt_iff : compare v.isRelease w.isRelease = .lt ↔
    v.prerelease ≠ [] ∧ w.prerelease = [] := by
  have hlt : compare false true = .lt := rfl
  unfold isRelease
  cases v.prerelease <;> cases w.prerelease <;> simp [hlt]

/-- Lists of identifiers that are compared as pre-releases are both of pre-releases. -/
theorem isRelease_eq_iff (h : List.Lex Identifier.Precedes v.prereleaseKey w.prereleaseKey) :
    v.isRelease = w.isRelease ↔ v.prerelease ≠ [] := by
  have hw : w.prerelease ≠ [] := fun hnil => by
    rw [prereleaseKey, prereleaseKey, hnil] at h
    exact List.not_lex_nil h
  unfold isRelease
  rw [List.isEmpty_eq_false_iff.mpr hw, List.isEmpty_eq_false_iff]

/-- **The order of versions starts with precedence.** -/
theorem comparePrecedence_eq_lt_iff : comparePrecedence v w = .lt ↔ v.Precedes w := by
  unfold comparePrecedence
  simp only [compareLex, compareOn, Ordering.then_eq_lt, Std.compare_eq_lt, Std.compare_eq_iff_eq,
    compare_isRelease_eq_lt_iff, compare_prereleaseKey_eq_lt_iff]
  constructor
  · rintro (h | ⟨hmajor, h | ⟨hminor, h | ⟨hpatch, ⟨hv, hw⟩ | ⟨hrelease, h⟩⟩⟩⟩)
    · exact .major h
    · exact .minor hmajor h
    · exact .patch hmajor hminor h
    · exact .release hmajor hminor hpatch hv hw
    · exact .prerelease hmajor hminor hpatch ((isRelease_eq_iff h).mp hrelease) h
  · rintro (h | ⟨hmajor, h⟩ | ⟨hmajor, hminor, h⟩ | ⟨hmajor, hminor, hpatch, hv, hw⟩ |
      ⟨hmajor, hminor, hpatch, hv, h⟩)
    · exact Or.inl h
    · exact Or.inr ⟨hmajor, Or.inl h⟩
    · exact Or.inr ⟨hmajor, Or.inr ⟨hminor, Or.inl h⟩⟩
    · exact Or.inr ⟨hmajor, Or.inr ⟨hminor, Or.inr ⟨hpatch, Or.inl ⟨hv, hw⟩⟩⟩⟩
    · exact Or.inr ⟨hmajor, Or.inr ⟨hminor, Or.inr ⟨hpatch,
        Or.inr ⟨(isRelease_eq_iff h).mpr hv, h⟩⟩⟩⟩

theorem comparePrecedence_eq_eq_iff : comparePrecedence v w = .eq ↔ v.SamePrecedence w := by
  unfold comparePrecedence
  simp only [compareLex, compareOn, Ordering.then_eq_eq, Std.compare_eq_iff_eq]
  constructor
  · rintro ⟨hmajor, hminor, hpatch, -, hkey⟩
    exact ⟨hmajor, hminor, hpatch, prereleaseKey_inj hkey⟩
  · rintro ⟨hmajor, hminor, hpatch, hprerelease⟩
    exact ⟨hmajor, hminor, hpatch, by rw [isRelease, isRelease, hprerelease],
      by rw [prereleaseKey, prereleaseKey, hprerelease]⟩

/-- **Of two versions one precedes the other, or they have the same precedence**, and not both. -/
theorem samePrecedence_iff : v.SamePrecedence w ↔ ¬v.Precedes w ∧ ¬w.Precedes v := by
  have hswap : comparePrecedence w v = (comparePrecedence v w).swap := Std.OrientedCmp.eq_swap
  rw [← comparePrecedence_eq_eq_iff, ← comparePrecedence_eq_lt_iff, ← comparePrecedence_eq_lt_iff,
    hswap]
  cases comparePrecedence v w <;> decide

/-- **Versions are ordered by precedence and then by build metadata.** -/
theorem compare_eq_lt_iff : compare v w = .lt ↔ v.Precedes w ∨ v.LowerByBuild w := by
  rw [compare_eq_then, Ordering.then_eq_lt, comparePrecedence_eq_lt_iff,
    comparePrecedence_eq_eq_iff, compare_list_eq_lt_iff]
  simp only [Identifier.compare_eq_lt_iff]
  exact or_congr_right ⟨fun ⟨h, hbuild⟩ => ⟨h, hbuild⟩, fun ⟨h, hbuild⟩ => ⟨h, hbuild⟩⟩

end Version

end BuildInputs

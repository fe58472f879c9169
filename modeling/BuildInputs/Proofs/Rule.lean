import BuildInputs.Proofs.Matching.Lexicographic
import BuildInputs.Proofs.Version.Precedence

/-!
# Rules about higher and lower values

"At most" and "at least" are the two sides of one total order, and equality is where they meet. The
highest and the lowest value are its extremes: every set of values has one of each.

On versions the order is precedence, refined by build metadata. So the two rules follow precedence
except where two versions of the same precedence differ in their build metadata, of which they
accept one order only (`accepts_version_iff`).
-/

namespace BuildInputs

theorem Value.compare_version (v w : Version) : compare (version v) (version w) = compare v w := rfl

namespace Compatibility

variable {a b c : Value}

/-! ## At most and at least -/

theorem accepts_equality_iff : equality.accepts a b = true ↔ a = b := by
  simp [accepts]

theorem accepts_atMost_iff : atMost.accepts a b = true ↔ (compare a b).isLE = true := Iff.rfl

theorem accepts_atLeast_iff : atLeast.accepts a b = true ↔ atMost.accepts b a = true := by
  have hswap : compare b a = (compare a b).swap := Std.OrientedCmp.eq_swap
  simp only [accepts, hswap, Ordering.isLE_swap]

theorem accepts_atMost_or_atLeast (a b : Value) :
    atMost.accepts a b = true ∨ atLeast.accepts a b = true := by
  simp only [accepts]
  cases compare a b <;> decide

theorem accepts_atMost_and_atLeast_iff :
    atMost.accepts a b = true ∧ atLeast.accepts a b = true ↔ equality.accepts a b = true := by
  have hequality : equality.accepts a b = true ↔ compare a b = .eq :=
    accepts_equality_iff.trans Std.compare_eq_iff_eq.symm
  rw [hequality]
  simp only [accepts]
  cases compare a b <;> decide

theorem accepts_atMost_antisymm (hab : atMost.accepts a b = true)
    (hba : atMost.accepts b a = true) : a = b :=
  accepts_equality_iff.mp (accepts_atMost_and_atLeast_iff.mp ⟨hab, accepts_atLeast_iff.mpr hba⟩)

theorem accepts_atMost_trans (hab : atMost.accepts a b = true) (hbc : atMost.accepts b c = true) :
    atMost.accepts a c = true :=
  Std.TransCmp.isLE_trans hab hbc

end Compatibility

namespace Preference

open Compatibility

/-- The value of a set on one side of which, by a rule, all values of the set are. -/
def IsExtreme (side : Compatibility) (values : ValueSet) (m : Value) : Prop :=
  m ∈ values.toList ∧ ∀ v ∈ values.toList, side.accepts v m = true

/-- The rule picks one value: the one that is extreme. -/
def PicksExtreme (rule : Preference) (side : Compatibility) (q : Option Value)
    (values : ValueSet) : Prop :=
  ∃ m, rule.best q values = .singleton m ∧ ∀ x, IsExtreme side values x ↔ x = m

variable {q : Option Value} {values : ValueSet} {m x : Value}

/-! ## The highest and the lowest value -/

/-- On a side whose rule is antisymmetric there is one extreme value at most. -/
theorem IsExtreme.iff_eq {side : Compatibility} (hm : IsExtreme side values m)
    (hantisymm : ∀ {a b}, side.accepts a b = true → side.accepts b a = true → a = b) :
    IsExtreme side values x ↔ x = m := by
  constructor
  · rintro ⟨hx, hextreme⟩
    exact hantisymm (hm.2 x hx) (hextreme m hm.1)
  · rintro rfl
    exact hm

/-- **The highest of the values is the one that all of them are at most.** -/
theorem highest_picks_extreme (hne : ∃ m, m ∈ values.toList)
    (hq : ∀ m ∈ values.toList, q ≠ some m) :
    highest.PicksExtreme atMost q values := by
  obtain ⟨x, hx⟩ := hne
  obtain ⟨m, hm⟩ := SortedBy.exists_max? hx
  have hextreme : IsExtreme atMost values m := SortedBy.max?_eq_some hm
  exact ⟨m, (highest_picks hq hm).2.1, fun _ => hextreme.iff_eq accepts_atMost_antisymm⟩

/-- **The lowest of the values is the one that all of them are at least.** -/
theorem lowest_picks_extreme (hne : ∃ m, m ∈ values.toList)
    (hq : ∀ m ∈ values.toList, q ≠ some m) :
    lowest.PicksExtreme atLeast q values := by
  obtain ⟨x, hx⟩ := hne
  obtain ⟨m, hm⟩ := SortedBy.exists_min? hx
  obtain ⟨hmem, hmin⟩ := SortedBy.min?_eq_some hm
  have hextreme : IsExtreme atLeast values m :=
    ⟨hmem, fun v hv => accepts_atLeast_iff.mpr (hmin v hv)⟩
  refine ⟨m, (lowest_picks hq hm).2.1, fun _ => hextreme.iff_eq fun hab hba => ?_⟩
  exact accepts_atMost_antisymm (accepts_atLeast_iff.mp hba) (accepts_atLeast_iff.mp hab)

end Preference

/-! ## Versions -/

namespace Compatibility

section Versions

variable {v w : Version}

theorem accepts_atMost_version_iff : atMost.accepts (.version v) (.version w) = true ↔
    ¬w.Precedes v ∧ ¬w.LowerByBuild v := by
  have hswap : compare w v = (compare v w).swap := Std.OrientedCmp.eq_swap
  have hlt : ¬(w.Precedes v ∨ w.LowerByBuild v) ↔ ¬compare w v = .lt :=
    not_congr Version.compare_eq_lt_iff.symm
  rw [← not_or, hlt, hswap, accepts_atMost_iff, Value.compare_version]
  cases compare v w <;> decide

theorem accepts_atMost_version_iff_lower : atMost.accepts (.version v) (.version w) = true ↔
    v = w ∨ v.Precedes w ∨ v.LowerByBuild w := by
  rw [accepts_atMost_iff, Value.compare_version, Ordering.isLE_iff_eq_lt_or_eq_eq,
    Version.compare_eq_lt_iff, Std.compare_eq_iff_eq]
  exact or_comm

/-- The rule follows precedence on two versions unless build metadata is against it. -/
theorem follows_precedence_iff :
    (atMost.accepts (.version v) (.version w) = true ↔ ¬w.Precedes v) ↔ ¬w.LowerByBuild v := by
  rw [accepts_atMost_version_iff]
  constructor
  · intro h hbuild
    have hprecedes : ¬w.Precedes v := (Version.samePrecedence_iff.mp hbuild.samePrecedence).1
    exact (h.mpr hprecedes).2 hbuild
  · intro hbuild
    exact and_iff_left hbuild

end Versions

/--
**The rules about higher and lower values are coherent.** Of any two values the first is at most or
at least the second, both when they are equal and only then; "at most" is transitive, and "at least"
is "at most" with the values exchanged. Of the values that are present, if the requested one is not
among them, the highest is the one that all are at most and the lowest the one that all are at
least. Versions are compared by precedence, and by build metadata if they have the same precedence.
-/
theorem ordering_coherent (a b c : Value) (v w : Version) (q : Option Value)
    (values : ValueSet) :
    (atMost.accepts a b = true ∨ atLeast.accepts a b = true) ∧
      (atMost.accepts a b = true ∧ atLeast.accepts a b = true ↔ equality.accepts a b = true) ∧
      (atMost.accepts a b = true → atMost.accepts b c = true → atMost.accepts a c = true) ∧
      (atLeast.accepts a b = true ↔ atMost.accepts b a = true) ∧
      ((∃ m, m ∈ values.toList) → (∀ m ∈ values.toList, q ≠ some m) →
        Preference.highest.PicksExtreme atMost q values ∧
          Preference.lowest.PicksExtreme atLeast q values) ∧
      (atMost.accepts (.version v) (.version w) = true ↔
        v = w ∨ v.Precedes w ∨ v.LowerByBuild w) :=
  ⟨accepts_atMost_or_atLeast a b, accepts_atMost_and_atLeast_iff, accepts_atMost_trans,
    accepts_atLeast_iff,
    fun hne hq => ⟨Preference.highest_picks_extreme hne hq, Preference.lowest_picks_extreme hne hq⟩,
    accepts_atMost_version_iff_lower⟩

/-- A release, the candidate before it and the version built from it for one system. -/
def release : Version := ⟨1, 2, 3, [], []⟩

@[inherit_doc release]
def releaseCandidate : Version :=
  { release with prerelease := [⟨⟨"rc".toList, by decide, by decide⟩, by decide⟩] }

@[inherit_doc release]
def linuxRelease : Version := { release with build := [⟨"linux".toList, by decide, by decide⟩] }

@[inherit_doc release]
def releases : ValueSet :=
  ⟨[.version releaseCandidate, .version release, .version linuxRelease], by decide⟩

/-- Without a requested value, all are between the candidate and the build for a system. -/
theorem ordering_coherent_releases :
    (∃ m, m ∈ releases.toList) ∧ (∀ m ∈ releases.toList, none ≠ some m) ∧
      atMost.accepts (.version releaseCandidate) (.version release) = true ∧
      atMost.accepts (.version release) (.version linuxRelease) = true ∧
      atMost.accepts (.version releaseCandidate) (.version linuxRelease) = true ∧
      Preference.highest.best none releases = .singleton (.version linuxRelease) ∧
      Preference.lowest.best none releases = .singleton (.version releaseCandidate) := by
  obtain ⟨-, -, htrans, -, hextreme, -⟩ :=
    ordering_coherent (.version releaseCandidate) (.version release) (.version linuxRelease)
      releaseCandidate release none releases
  have hne : ∃ m, m ∈ releases.toList := ⟨.version release, by decide⟩
  have hnone : ∀ m ∈ releases.toList, none ≠ some m := by decide
  have hcandidate : atMost.accepts (.version releaseCandidate) (.version release) = true := by
    decide
  have hbuild : atMost.accepts (.version release) (.version linuxRelease) = true := by decide
  obtain ⟨⟨high, hhighest, hhigh⟩, low, hlowest, hlow⟩ := hextreme hne hnone
  have hmax : Preference.IsExtreme atMost releases (.version linuxRelease) :=
    ⟨by decide, by decide⟩
  have hmin : Preference.IsExtreme atLeast releases (.version releaseCandidate) :=
    ⟨by decide, by decide⟩
  refine ⟨hne, hnone, hcandidate, hbuild, htrans hcandidate hbuild, ?_, ?_⟩
  · rw [(hhigh _).mp hmax]
    exact hhighest
  · rw [(hlow _).mp hmin]
    exact hlowest

/--
**The ordering rules follow precedence up to build metadata.** "At most" accepts a version unless
the request precedes it or is lower by its build metadata alone, and "at least" the other way round.
So each of the two rules accepts by precedence exactly where build metadata is not against it.
-/
theorem accepts_version_iff (v w : Version) :
    (atMost.accepts (.version v) (.version w) = true ↔ ¬w.Precedes v ∧ ¬w.LowerByBuild v) ∧
      (atLeast.accepts (.version v) (.version w) = true ↔ ¬v.Precedes w ∧ ¬v.LowerByBuild w) ∧
      ((atMost.accepts (.version v) (.version w) = true ↔ ¬w.Precedes v) ↔ ¬w.LowerByBuild v) ∧
      ((atLeast.accepts (.version v) (.version w) = true ↔ ¬v.Precedes w) ↔
        ¬v.LowerByBuild w) := by
  rw [accepts_atLeast_iff]
  exact ⟨accepts_atMost_version_iff, accepts_atMost_version_iff, follows_precedence_iff,
    follows_precedence_iff⟩

/-- A build of a release has its precedence, but a request of at most the release rejects it. -/
theorem accepts_ne_precedence_linuxRelease :
    ¬release.Precedes linuxRelease ∧ ¬linuxRelease.Precedes release ∧
      atMost.accepts (.version linuxRelease) (.version release) = false ∧
      ¬(atMost.accepts (.version linuxRelease) (.version release) = true ↔
        ¬release.Precedes linuxRelease) := by
  have hsame : release.SamePrecedence linuxRelease := ⟨rfl, rfl, rfl, rfl⟩
  obtain ⟨hrelease, hlinux⟩ := Version.samePrecedence_iff.mp hsame
  have hrejects : atMost.accepts (.version linuxRelease) (.version release) = false := by decide
  refine ⟨hrelease, hlinux, hrejects, fun h => ?_⟩
  rw [hrejects] at h
  exact Bool.false_ne_true (h.mpr hrelease)

end Compatibility

end BuildInputs

import BuildInputs.Attribute
import BuildInputs.Proofs.Decimal
import BuildInputs.Proofs.Sorted

/-!
# The order of values is lawful

Identifiers, versions and values are compared by keys, one after the other. Together the keys
determine what is compared, so two things that compare as equal are equal, and sets of values
(`ValueSet`) are determined by their elements.
-/

namespace BuildInputs

/-! ## Identifiers and versions -/

theorem Identifier.sortKey_inj {i j : Identifier} (h : i.sortKey = j.sortKey) : i = j := by
  have hchars : i.chars = j.chars := by
    unfold sortKey at h
    split at h <;> split at h
    · next hi hj =>
      simp only [List.cons.injEq, and_true, true_and] at h
      exact Decimal.value_inj hi hj h.2 h.1
    · cases h
    · cases h
    · exact (List.map_inj_right fun _ _ => Char.toNat_inj.mp).mp (List.cons.inj h).2
  cases i
  cases j
  cases hchars
  rfl

instance : Std.LawfulEqOrd Identifier where
  compare_self := Std.ReflOrd.compare_self (α := List Nat)
  eq_of_compare h := Identifier.sortKey_inj (Std.LawfulEqOrd.eq_of_compare h)

theorem Version.prereleaseKey_inj {v w : Version} (h : v.prereleaseKey = w.prereleaseKey) :
    v.prerelease = w.prerelease :=
  (List.map_inj_right fun _ _ => Subtype.ext).mp h

instance : Std.LawfulEqOrd Version where
  compare_self := Std.ReflOrd.compare_self
  eq_of_compare {v w} h := by
    obtain ⟨hmajor, h⟩ := Ordering.then_eq_eq.mp h
    obtain ⟨hminor, h⟩ := Ordering.then_eq_eq.mp h
    obtain ⟨hpatch, h⟩ := Ordering.then_eq_eq.mp h
    obtain ⟨-, h⟩ := Ordering.then_eq_eq.mp h
    obtain ⟨hprerelease, hbuild⟩ := Ordering.then_eq_eq.mp h
    have hmajor : v.major = w.major := Std.LawfulEqOrd.eq_of_compare hmajor
    have hminor : v.minor = w.minor := Std.LawfulEqOrd.eq_of_compare hminor
    have hpatch : v.patch = w.patch := Std.LawfulEqOrd.eq_of_compare hpatch
    have hprerelease : v.prerelease = w.prerelease :=
      Version.prereleaseKey_inj (Std.LawfulEqOrd.eq_of_compare hprerelease)
    have hbuild : v.build = w.build := Std.LawfulEqOrd.eq_of_compare hbuild
    cases v
    cases w
    cases hmajor; cases hminor; cases hpatch; cases hprerelease; cases hbuild
    rfl

/-! ## Values -/

theorem ValueType.rank_inj {t u : ValueType} (h : t.rank = u.rank) : t = u := by
  cases t <;> cases u <;> first | rfl | cases h

instance : Std.LawfulEqOrd Value where
  compare_self := Std.ReflOrd.compare_self
  eq_of_compare {v w} h := by
    obtain ⟨htype, h⟩ := Ordering.then_eq_eq.mp h
    obtain ⟨hstring, h⟩ := Ordering.then_eq_eq.mp h
    obtain ⟨hboolean, h⟩ := Ordering.then_eq_eq.mp h
    obtain ⟨hinteger, hversion⟩ := Ordering.then_eq_eq.mp h
    have htype : v.type = w.type := ValueType.rank_inj (Std.LawfulEqOrd.eq_of_compare htype)
    have hstring : v.string? = w.string? := Std.LawfulEqOrd.eq_of_compare hstring
    have hboolean : v.boolean? = w.boolean? := Std.LawfulEqOrd.eq_of_compare hboolean
    have hinteger : v.integer? = w.integer? := Std.LawfulEqOrd.eq_of_compare hinteger
    have hversion : v.version? = w.version? := Std.LawfulEqOrd.eq_of_compare hversion
    -- values of one type have the same constructor, and one of the keys is what it holds
    cases v <;> cases w <;> cases htype
    · cases hstring; rfl
    · cases hboolean; rfl
    · cases hinteger; rfl
    · cases hversion; rfl

end BuildInputs

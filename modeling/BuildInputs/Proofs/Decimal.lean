import Mathlib.Algebra.Group.Nat.Defs
import BuildInputs.Decimal

/-!
# Decimal digits and numbers

Digits are the places of a number, so numbers of equally many digits are written in one way
(`value_inj`). Without leading zeros the number of digits is that of the number, and there is one
way to write it at all (`toDigits_value`). A signed number is read back from its text
(`parseInt64?_toString`).
-/

namespace BuildInputs.Decimal

variable {c : Char} {cs : List Char}

/-! ## Places -/

theorem digitValue_lt {c : Char} (h : c.isDigit = true) : digitValue c < 10 := by
  simp only [Char.isDigit, Bool.and_eq_true, decide_eq_true_eq] at h
  show c.toNat - 48 < 10
  have : c.val.toNat ≤ 57 := h.2
  have : c.toNat = c.val.toNat := rfl
  omega

theorem digitValue_inj {c d : Char} (hc : c.isDigit = true) (hd : d.isDigit = true)
    (h : digitValue c = digitValue d) : c = d := by
  simp only [Char.isDigit, Bool.and_eq_true, decide_eq_true_eq] at hc hd
  have hlow : 48 ≤ c.val.toNat := hc.1
  have hlow' : 48 ≤ d.val.toNat := hd.1
  have h : c.val.toNat - 48 = d.val.toNat - 48 := h
  exact Char.ext (UInt32.toNat_inj.mp (by omega))

theorem foldl_digits (cs : List Char) (n : Nat) :
    cs.foldl (fun n c => n * 10 + digitValue c) n = n * 10 ^ cs.length + value cs := by
  induction cs generalizing n with
  | nil => simp [value, valueIn]
  | cons c cs ih =>
    unfold value valueIn
    rw [List.foldl_cons, List.foldl_cons, ih, ih (0 * 10 + digitValue c), List.length_cons,
      Nat.pow_succ]
    grind

theorem value_cons (c : Char) (cs : List Char) :
    value (c :: cs) = digitValue c * 10 ^ cs.length + value cs := by
  have h : value (c :: cs) = (0 * 10 + digitValue c) * 10 ^ cs.length + value cs :=
    foldl_digits cs _
  rwa [Nat.zero_mul, Nat.zero_add] at h

theorem value_lt : ∀ {cs : List Char}, cs.all Char.isDigit = true → value cs < 10 ^ cs.length
  | [], _ => Nat.one_pos
  | c :: cs, h => by
    rw [List.all_cons, Bool.and_eq_true] at h
    have hdigit := digitValue_lt h.1
    have hrest := value_lt h.2
    have : digitValue c * 10 ^ cs.length ≤ 9 * 10 ^ cs.length :=
      Nat.mul_le_mul_right _ (by omega)
    rw [value_cons, List.length_cons, Nat.pow_succ]
    omega

/-- **Numbers of equally many digits are written in one way.** -/
theorem value_inj : ∀ {cs ds : List Char}, cs.all Char.isDigit = true → ds.all Char.isDigit = true →
    cs.length = ds.length → value cs = value ds → cs = ds
  | [], [], _, _, _, _ => rfl
  | c :: cs, d :: ds, hc, hd, hlength, h => by
    rw [List.all_cons, Bool.and_eq_true] at hc hd
    have hlength : cs.length = ds.length := Nat.succ.inj hlength
    have hcs := value_lt hc.2
    have hds := value_lt hd.2
    rw [value_cons, value_cons, hlength] at h
    rw [hlength] at hcs
    have hpos : 0 < 10 ^ ds.length := Nat.pow_pos (by decide)
    -- the first digit is the quotient, the rest the remainder
    have hquotient := congrArg (· / 10 ^ ds.length) h
    have hremainder := congrArg (· % 10 ^ ds.length) h
    simp only [Nat.mul_comm _ (10 ^ ds.length), Nat.mul_add_div hpos, Nat.mul_add_mod,
      Nat.div_eq_of_lt hcs, Nat.div_eq_of_lt hds, Nat.mod_eq_of_lt hcs, Nat.mod_eq_of_lt hds,
      Nat.add_zero] at hquotient hremainder
    rw [digitValue_inj hc.1 hd.1 hquotient, value_inj hc.2 hd.2 hlength hremainder]

/-! ## Numbers and their digits -/

theorem all_isDigit_toDigits (n : Nat) : (Nat.toDigits 10 n).all Char.isDigit = true :=
  List.all_eq_true.mpr fun _ hc => Nat.isDigit_of_mem_toDigits (by decide) (by decide) hc

/-- The digits of a number denote it. -/
theorem value_toDigits (n : Nat) : value (Nat.toDigits 10 n) = n := by
  have h : Nat.ofDigitChars 10 (Nat.toDigits 10 n) 0 = n := Nat.ofDigitChars_ten_toDigits
  rw [Nat.ofDigitChars_eq_foldl] at h
  simpa only [value, valueIn, digitValue, Nat.mul_comm 10] using h

/-- The first of several digits is not zero. -/
def NoLeadingZero (cs : List Char) : Prop := cs.head? = some '0' → cs.length = 1

theorem lt_value (hdigit : c.isDigit = true) (hc : c ≠ '0') (cs : List Char) :
    10 ^ cs.length ≤ value (c :: cs) := by
  have hpos : 1 ≤ digitValue c := Nat.one_le_iff_ne_zero.mpr fun h =>
    hc (digitValue_inj hdigit (by decide) h)
  rw [value_cons]
  exact Nat.le_add_right_of_le (Nat.le_mul_of_pos_left _ hpos)

theorem length_toDigits_value (hne : cs ≠ []) (hdigits : cs.all Char.isDigit = true)
    (hlead : NoLeadingZero cs) : (Nat.toDigits 10 (value cs)).length = cs.length := by
  have hle {k : Nat} (hk : 0 < k) : (Nat.toDigits 10 (value cs)).length ≤ k ↔ value cs < 10 ^ k :=
    Nat.length_toDigits_le_iff (by decide) hk
  refine Nat.le_antisymm ((hle (List.length_pos_iff.mpr hne)).mpr (value_lt hdigits)) ?_
  obtain ⟨c, cs, rfl⟩ := List.exists_cons_of_ne_nil hne
  rw [List.all_cons, Bool.and_eq_true] at hdigits
  by_cases hcs : cs = []
  · subst hcs
    exact Nat.length_toDigits_pos
  · -- a number with a digit less would be smaller than its first place
    have hc : c ≠ '0' := fun h => hcs (by simpa [NoLeadingZero, h] using hlead)
    refine Nat.lt_of_not_le fun h => ?_
    exact Nat.not_lt.mpr (lt_value hdigits.1 hc cs) ((hle (List.length_pos_iff.mpr hcs)).mp h)

/-- **Without leading zeros a number is written in one way.** -/
theorem toDigits_value (hne : cs ≠ []) (hdigits : cs.all Char.isDigit = true)
    (hlead : NoLeadingZero cs) : Nat.toDigits 10 (value cs) = cs :=
  value_inj (all_isDigit_toDigits _) hdigits (length_toDigits_value hne hdigits hlead)
    (value_toDigits _)

theorem noLeadingZero_toDigits (n : Nat) : NoLeadingZero (Nat.toDigits 10 n) := by
  intro h
  obtain ⟨ds, hds⟩ := List.head?_eq_some_iff.mp h
  rw [hds]
  by_cases hne : ds = []
  · rw [hne]
    rfl
  · -- the number is that of the other digits, and so is written with fewer
    have hvalue : n = value ds := by
      have := value_toDigits n
      rw [hds, value_cons, show digitValue '0' = 0 from rfl, Nat.zero_mul, Nat.zero_add] at this
      exact this.symm
    have hdigits : ds.all Char.isDigit = true := by
      have := all_isDigit_toDigits n
      rw [hds, List.all_cons, Bool.and_eq_true] at this
      exact this.2
    have hlength : (Nat.toDigits 10 n).length ≤ ds.length :=
      (Nat.length_toDigits_le_iff (by decide) (List.length_pos_iff.mpr hne)).mpr
        (hvalue ▸ value_lt hdigits)
    rw [hds, List.length_cons] at hlength
    omega

/-! ## Signed numbers -/

/-- Whether a text starts with a minus, and the text without its sign. -/
def cutSign : List Char → Bool × List Char
  | '-' :: cs => (true, cs)
  | '+' :: cs => (false, cs)
  | cs => (false, cs)

/-- The number that digits denote with a minus before them, or without one. -/
def signed (negative : Bool) (digits : List Char) : Int :=
  if negative then -(value digits : Int) else value digits

theorem cutSign_of_all_isDigit (h : cs.all Char.isDigit = true) : cutSign cs = (false, cs) := by
  unfold cutSign
  split
  · simp [Char.isDigit] at h
  · simp [Char.isDigit] at h
  · rfl

theorem parseInt64?_of_cutSign {s : String} {negative : Bool} {digits : List Char}
    (h : cutSign s.toList = (negative, digits)) : parseInt64? s =
      if digits.isEmpty || !digits.all Char.isDigit then none
      else if Int64.minValue.toInt ≤ signed negative digits ∧
        signed negative digits ≤ Int64.maxValue.toInt
      then some (Int64.ofInt (signed negative digits)) else none := by
  have hparse : parseInt64? s = (fun p : Bool × List Char =>
      if p.2.isEmpty || !p.2.all Char.isDigit then none
      else if Int64.minValue.toInt ≤ signed p.1 p.2 ∧ signed p.1 p.2 ≤ Int64.maxValue.toInt
      then some (Int64.ofInt (signed p.1 p.2)) else none) (cutSign s.toList) := rfl
  rw [hparse, h]

/-- **A signed number is digits in range after a sign**, which may be left out. -/
theorem parseInt64?_eq_some_iff {s : String} {i : Int64} :
    parseInt64? s = some i ↔ ∃ negative digits, cutSign s.toList = (negative, digits) ∧
      digits ≠ [] ∧ digits.all Char.isDigit = true ∧ signed negative digits = i.toInt := by
  constructor
  · intro h
    rcases hcut : cutSign s.toList with ⟨negative, digits⟩
    rw [parseInt64?_of_cutSign hcut] at h
    split at h
    · cases h
    · next hdigits =>
      split at h
      · next hrange =>
        simp only [Bool.or_eq_true, not_or, List.isEmpty_iff, Bool.not_eq_true',
          Bool.not_eq_false] at hdigits
        refine ⟨negative, digits, rfl, hdigits.1, hdigits.2, ?_⟩
        cases h
        exact (Int64.toInt_ofInt_of_le hrange.1 (Int.lt_add_one_of_le hrange.2)).symm
      · cases h
  · rintro ⟨negative, digits, hcut, hne, hdigits, hi⟩
    have hread : ¬(digits.isEmpty || !digits.all Char.isDigit) = true := by simp [hne, hdigits]
    rw [parseInt64?_of_cutSign hcut, if_neg hread, hi,
      if_pos ⟨Int64.minValue_le_toInt i, Int64.toInt_le i⟩, Int64.ofInt_toInt]

/-- **A signed number is read back from its text.** -/
theorem parseInt64?_toString (i : Int64) : parseInt64? (toString i.toInt) = some i := by
  have htext : toString i.toInt = i.toInt.repr := rfl
  rw [parseInt64?_eq_some_iff, htext, Int.repr_eq_if]
  split
  · next h =>
    refine ⟨false, Nat.toDigits 10 i.toInt.toNat, ?_, Nat.toDigits_ne_nil,
      all_isDigit_toDigits _, ?_⟩
    · rw [Nat.toList_repr]
      exact cutSign_of_all_isDigit (all_isDigit_toDigits _)
    · show (value (Nat.toDigits 10 i.toInt.toNat) : Int) = i.toInt
      rw [value_toDigits]
      exact Int.toNat_of_nonneg h
  · next h =>
    refine ⟨true, Nat.toDigits 10 (-i.toInt).toNat, ?_, Nat.toDigits_ne_nil,
      all_isDigit_toDigits _, ?_⟩
    · simp [cutSign]
    · show -(value (Nat.toDigits 10 (-i.toInt).toNat) : Int) = i.toInt
      rw [value_toDigits]
      omega

end BuildInputs.Decimal

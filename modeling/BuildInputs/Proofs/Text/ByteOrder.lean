import Mathlib.Tactic.SplitIfs
import BuildInputs.Proofs.Digest.Decoding

/-!
# Texts are in the order of their bytes

Sorted collections compare names character by character. This is the order of the bytes that the
names are written in (`utf8_lt_utf8_iff`), so their elements stand in byte order.

A character is written as a number in base 64: the highest digit is in the lead byte, on top of a
mark that tells how many continuation bytes follow (`digits`). Numbers with as many continuation
bytes are compared digit by digit, and more continuation bytes mean a larger lead byte.
-/

namespace BuildInputs.Digest

/-! ## Numbers in base 64 -/

/-- The byte that continues a character with the last digit of a number. -/
def continuation (v : Nat) : UInt8 := UInt8.ofNat (v % 64 + 128)

/-- A number as a lead byte with a mark and a count of continuation bytes. -/
def digits (mark : Nat) : Nat → Nat → Bytes
  | 0, v => [UInt8.ofNat (v + mark)]
  | count + 1, v => digits mark count (v / 64) ++ [continuation v]

variable {mark mark' count count' bound m n : Nat} {x y : Bytes}

theorem ofNat_lt_ofNat (h : m < n) (hn : n < 256) : UInt8.ofNat m < UInt8.ofNat n := by
  rw [UInt8.lt_iff_toNat_lt, UInt8.toNat_ofNat', UInt8.toNat_ofNat',
    Nat.mod_eq_of_lt (Nat.lt_trans h hn), Nat.mod_eq_of_lt hn]
  exact h

/-- The lead byte holds what is above the continuation bytes. -/
theorem exists_digits_eq_cons (mark count v : Nat) :
    ∃ rest, digits mark count v = UInt8.ofNat (v / 64 ^ count + mark) :: rest := by
  induction count generalizing v with
  | zero => exact ⟨[], by simp [digits]⟩
  | succ count ih =>
    obtain ⟨rest, hrest⟩ := ih (v / 64)
    refine ⟨rest ++ [continuation v], ?_⟩
    rw [digits, hrest, Nat.div_div_eq_div_mul, ← Nat.pow_succ', List.cons_append]

theorem digits_lt_of_lead_lt (h : m / 64 ^ count + mark < n / 64 ^ count' + mark')
    (hbyte : n / 64 ^ count' + mark' < 256) :
    digits mark count m ++ x < digits mark' count' n ++ y := by
  obtain ⟨rest, hm⟩ := exists_digits_eq_cons mark count m
  obtain ⟨rest', hn⟩ := exists_digits_eq_cons mark' count' n
  rw [hm, hn, List.cons_append, List.cons_append]
  exact List.cons_lt_cons_iff.mpr (.inl (ofNat_lt_ofNat h hbyte))

/-- **Numbers with as many continuation bytes are in the order of their bytes.** -/
theorem digits_lt_digits (h : m < n) (hbyte : n / 64 ^ count + mark < 256) :
    digits mark count m ++ x < digits mark count n ++ y := by
  induction count generalizing m n x y with
  | zero =>
    refine digits_lt_of_lead_lt ?_ hbyte
    rw [Nat.pow_zero, Nat.div_one, Nat.div_one]
    exact Nat.add_lt_add_right h mark
  | succ count ih =>
    rw [digits, digits, List.append_assoc, List.append_assoc]
    rcases Nat.lt_or_eq_of_le (Nat.div_le_div_right (c := 64) (Nat.le_of_lt h)) with hdiv | hdiv
    · -- a higher digit decides
      refine ih hdiv ?_
      rwa [Nat.div_div_eq_div_mul, ← Nat.pow_succ']
    · -- only the last digits differ
      rw [hdiv]
      refine List.append_left_lt (List.cons_lt_cons_iff.mpr (.inl ?_))
      exact ofNat_lt_ofNat (by omega) (by omega)

/-! ## Characters -/

/-- The mark and the count of continuation bytes with which UTF-8 writes a character. -/
def form (v : Nat) : Nat × Nat :=
  if v ≤ 127 then (0, 0)
  else if v ≤ 2047 then (192, 1)
  else if v ≤ 65535 then (224, 2)
  else (240, 3)

/-- The lead byte of a character. -/
def lead (v : Nat) : Nat := v / 64 ^ (form v).2 + (form v).1

theorem lead_lt {v : Nat} (h : v < 1114112) : lead v < 256 := by
  unfold lead form
  split_ifs <;> dsimp only <;> omega

/-- A larger character has the same form, or a larger lead byte. -/
theorem form_eq_or_lead_lt (h : m < n) (hn : n < 1114112) : form m = form n ∨ lead m < lead n := by
  unfold lead form
  split_ifs
  all_goals first
    | exact .inl rfl
    | exact .inr (by dsimp only; omega)

theorem utf8EncodeChar_eq (c : Char) : String.utf8EncodeChar c =
    digits (form c.val.toNat).1 (form c.val.toNat).2 c.val.toNat := by
  have hvalid : c.val.toNat < 1114112 := by
    have := c.valid
    grind
  unfold String.utf8EncodeChar form
  dsimp only
  generalize c.val.toNat = v at *
  have htwo : v / 4096 = v / 64 / 64 := by omega
  have hthree : v / 262144 = v / 64 / 64 / 64 := by omega
  -- the definition cuts the highest digit to its bits, but it has no others
  split_ifs
  · rfl
  · rw [Nat.mod_eq_of_lt (by omega)]
    rfl
  · rw [htwo, Nat.mod_eq_of_lt (by omega)]
    rfl
  · rw [hthree, htwo, Nat.mod_eq_of_lt (by omega)]
    rfl

/-- **A smaller character is written in smaller bytes**, whatever follows. -/
theorem utf8EncodeChar_append_lt {c d : Char} (h : c < d) :
    String.utf8EncodeChar c ++ x < String.utf8EncodeChar d ++ y := by
  have hlt : c.val.toNat < d.val.toNat := h
  have hvalid : d.val.toNat < 1114112 := by
    have := d.valid
    grind
  rw [utf8EncodeChar_eq, utf8EncodeChar_eq]
  rcases form_eq_or_lead_lt hlt hvalid with hform | hlead
  · rw [hform]
    exact digits_lt_digits hlt (lead_lt hvalid)
  · exact digits_lt_of_lead_lt hlead (lead_lt hvalid)

/-! ## Texts -/

theorem flatMap_utf8EncodeChar_lt {l k : List Char} (h : l < k) :
    l.flatMap String.utf8EncodeChar < k.flatMap String.utf8EncodeChar := by
  induction l generalizing k with
  | nil =>
    cases k with
    | nil => exact absurd h (List.not_lt_nil [])
    | cons d k =>
      rw [List.flatMap_cons, utf8EncodeChar_eq]
      obtain ⟨rest, hd⟩ :=
        exists_digits_eq_cons (form d.val.toNat).1 (form d.val.toNat).2 d.val.toNat
      rw [hd]
      exact List.nil_lt_cons _ _
  | cons c l ih =>
    cases k with
    | nil => exact absurd h (List.not_lt_nil _)
    | cons d k =>
      rw [List.flatMap_cons, List.flatMap_cons]
      rcases List.cons_lt_cons_iff.mp h with hlt | ⟨rfl, hlt⟩
      · exact utf8EncodeChar_append_lt hlt
      · exact List.append_left_lt (ih hlt)

theorem utf8_lt_utf8 {s t : String} (h : compare s t = .lt) : utf8 s < utf8 t := by
  rw [← String.ofList_toList (s := s), ← String.ofList_toList (s := t), utf8_ofList, utf8_ofList]
  exact flatMap_utf8EncodeChar_lt (String.lt_iff.mp (compareOfLessAndEq_eq_lt.mp h))

/-- **Texts are in the order of their bytes.** -/
theorem utf8_lt_utf8_iff {s t : String} : utf8 s < utf8 t ↔ compare s t = .lt := by
  refine ⟨fun h => ?_, utf8_lt_utf8⟩
  cases horder : compare s t with
  | lt => rfl
  | eq =>
    rw [Std.LawfulEqCmp.eq_of_compare horder] at h
    exact absurd h (List.lt_irrefl _)
  | gt => exact absurd (utf8_lt_utf8 (Std.OrientedCmp.lt_of_gt horder)) (List.lt_asymm h)

end BuildInputs.Digest

import BuildInputs.Attribute.Set
import BuildInputs.Proofs.Except
import BuildInputs.Proofs.Sorted

/-!
# What attribute sets hold

A set is known by the entry that is found under each name (`ext_entry?`). Putting in a value
succeeds when the value has the type of its attribute and the set admits the attribute
(`put_eq_ok_iff`), and otherwise tells which of the two is not so (`put_eq_error_iff`).
-/

namespace BuildInputs.AttributeSet

variable {s t : AttributeSet} {a : Attribute} {v : Value} {name : String} {e : Entry}
  {err : AttributeError}

/-! ## Looking up -/

theorem entry?_eq_some_iff : s.entry? name = some e ↔ e ∈ s.entries ∧ e.name = name :=
  SortedBy.find?_eq_some_iff

/-- A set has a value of an attribute when it holds it under the name, with the type. -/
theorem get?_eq_some_iff : s.get? a = some v ↔ ⟨a.name, v⟩ ∈ s.entries ∧ v.type = a.type := by
  unfold get?
  rw [Option.map_eq_some_iff]
  constructor
  · rintro ⟨e, he, rfl⟩
    obtain ⟨hentry, hkey⟩ := Option.filter_eq_some_iff.mp he
    obtain rfl : e.key = a := of_decide_eq_true hkey
    exact ⟨(entry?_eq_some_iff.mp hentry).1, rfl⟩
  · rintro ⟨hmem, htype⟩
    refine ⟨⟨a.name, v⟩,
      Option.filter_eq_some_iff.mpr ⟨entry?_eq_some_iff.mpr ⟨hmem, rfl⟩, ?_⟩, rfl⟩
    exact decide_eq_true (congrArg (Attribute.mk a.name) htype)

/-- **Sets in which the same is found are equal.** -/
theorem ext_entry? (h : ∀ name, s.entry? name = t.entry? name) : s = t := SortedBy.ext_find? h

theorem entry?_empty : entry? .empty name = none := rfl

theorem entry?_insert :
    entry? (s.insert e) name = if e.name = name then some e else s.entry? name :=
  SortedBy.find?_insert

/-! ## Putting in -/

/-- Under the name of the attribute, the set holds no value of another type. -/
def Admits (s : AttributeSet) (a : Attribute) : Prop :=
  ∀ e, s.entry? a.name = some e → e.value.type = a.type

theorem put_of_type_ne (hv : v.type ≠ a.type) : s.put a v = .error (.typeMismatch a v) := by
  unfold put Attribute.check
  rw [if_neg hv]
  rfl

theorem put_of_type_eq (hv : v.type = a.type) :
    s.put a v = match s.entry? a.name with
      | some e =>
        if e.value.type = a.type then .ok (s.insert ⟨a.name, v⟩)
        else .error (.conflictingType a.name e.value.type a.type)
      | none => .ok (s.insert ⟨a.name, v⟩) := by
  unfold put Attribute.check
  rw [if_pos hv]
  rfl

/-- **A value of its attribute's type is put into a set that admits the attribute.** -/
theorem put_eq_ok_iff :
    s.put a v = .ok t ↔ v.type = a.type ∧ s.Admits a ∧ t = s.insert ⟨a.name, v⟩ := by
  by_cases hv : v.type = a.type
  · rw [put_of_type_eq hv]
    cases hentry : s.entry? a.name with
    | none => simp [Admits, hv, hentry, @eq_comm _ t]
    | some e =>
      by_cases htype : e.value.type = a.type
      · simp [Admits, hv, hentry, htype, @eq_comm _ t]
      · simp [Admits, hentry, htype]
  · simp [put_of_type_ne hv, hv]

/--
**A value that is not put in has another type than its attribute or than the value it would
replace.**
-/
theorem put_eq_error_iff : s.put a v = .error err ↔
    (v.type ≠ a.type ∧ err = .typeMismatch a v) ∨
      (v.type = a.type ∧ ∃ e, s.entry? a.name = some e ∧ e.value.type ≠ a.type ∧
        err = .conflictingType a.name e.value.type a.type) := by
  by_cases hv : v.type = a.type
  · rw [put_of_type_eq hv]
    cases hentry : s.entry? a.name with
    | none => simp [hv]
    | some e => by_cases htype : e.value.type = a.type <;> simp [hv, htype, @eq_comm _ err]
  · simp [put_of_type_ne hv, hv, @eq_comm _ err]

/-- Under a new name nothing can be in conflict. -/
theorem put_of_entry?_eq_none (hnew : s.entry? a.name = none) (hv : v.type = a.type) :
    s.put a v = .ok (s.insert ⟨a.name, v⟩) := by
  refine put_eq_ok_iff.mpr ⟨hv, fun e he => ?_, rfl⟩
  simp [hnew] at he

end BuildInputs.AttributeSet

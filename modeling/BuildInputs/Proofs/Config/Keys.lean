import BuildInputs.Proofs.Config.Denotation
import BuildInputs.Proofs.Version.Text

/-!
# Values as table keys

Every value can be written as a table key of a document: its text is a key that stands for it. A
number has further keys, with a sign or with leading zeros, but each of them stands for a value
whose own text is a key as well.
-/

namespace BuildInputs

variable {t : ValueType} {k : String} {v w : Value}

theorem KeyDenotes.type_eq (h : KeyDenotes t k v) : v.type = t := by
  cases h <;> rfl

/-- The text of a value denotes it. -/
theorem keyDenotes_text (v : Value) : KeyDenotes v.type v.text v := by
  cases v with
  | string s => exact .string s
  | boolean b =>
    cases b with
    | true => exact .true
    | false => exact .false
  | integer i => exact .integer (Decimal.parseInt64?_toString i)
  | version v => exact .version (Version.parse_text v)

namespace Attribute

variable {a : Attribute}

theorem type_of_coerceKey (h : a.coerceKey k = .ok v) : v.type = a.type :=
  (coerceKey_eq_ok_iff.mp h).type_eq

/-- **The text of a value is a key for it**, under every attribute of its type. -/
theorem coerceKey_text_iff : a.coerceKey v.text = .ok v ↔ v.type = a.type := by
  refine ⟨type_of_coerceKey, fun h => coerceKey_eq_ok_iff.mpr ?_⟩
  rw [← h]
  exact keyDenotes_text v

end Attribute

/-- Values of one type have different texts. -/
theorem Value.eq_of_text_eq (htype : v.type = w.type) (htext : v.text = w.text) : v = w := by
  let a : Attribute := ⟨"", w.type⟩
  have hv : a.coerceKey v.text = .ok v := Attribute.coerceKey_text_iff.mpr htype
  have hw : a.coerceKey w.text = .ok w := Attribute.coerceKey_text_iff.mpr rfl
  rw [htext, hw] at hv
  exact (Except.ok.inj hv).symm

namespace Attribute

/--
**Every value can be written as a table key.** The text of a value is read back as the value under
exactly the attributes of its type, so values of one type are told apart by their texts. What any
key stands for is of the attribute's type, and its text is a key for it.
-/
theorem coerceKey_text_laws (a : Attribute) (v w : Value) :
    (a.coerceKey v.text = .ok v ↔ v.type = a.type) ∧
      (v.type = w.type ∧ v.text = w.text ↔ v = w) ∧
      ((∃ k, a.coerceKey k = .ok w) ↔ w.type = a.type ∧ a.coerceKey w.text = .ok w) := by
  refine ⟨coerceKey_text_iff, ?_, ?_⟩
  · constructor
    · rintro ⟨htype, htext⟩
      exact Value.eq_of_text_eq htype htext
    · rintro rfl
      exact ⟨rfl, rfl⟩
  · constructor
    · rintro ⟨k, h⟩
      have htype := type_of_coerceKey h
      exact ⟨htype, coerceKey_text_iff.mpr htype⟩
    · rintro ⟨-, h⟩
      exact ⟨w.text, h⟩

/-- A number has keys besides its text. -/
example : coerceKey ⟨"level", .integer⟩ "+007" = .ok (.integer 7) ∧
    Value.text (.integer 7) = "7" := ⟨rfl, rfl⟩

end Attribute

end BuildInputs

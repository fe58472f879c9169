import BuildInputs.Proofs.Attribute.Order
import BuildInputs.Proofs.Config.Coercion
import BuildInputs.Proofs.Text.ByteOrder

/-!
# What values of documents denote

A value of a document, and a table key, denotes at most one value of each type, and it is coerced
when it denotes one. Values of one type lie on the scale of the type: texts by their bytes, integers
by size, versions by precedence.

* `Attribute.coerce_eq_ok_iff`, `Attribute.coerceKey_eq_ok_iff` — when a coercion returns, and what
* `Value.isLE_compare_iff` — within a type, values are compared on the scale of the type
-/

namespace BuildInputs

open Digest

/-! ## Values on a scale -/

namespace Value

/-- A value is not above another one of its type. -/
inductive AtMost : Value → Value → Prop
  /-- Texts are in the order of their bytes. -/
  | string {s t : String} (h : utf8 s ≤ utf8 t) : AtMost (.string s) (.string t)
  | boolean {b c : Bool} (h : b ≤ c) : AtMost (.boolean b) (.boolean c)
  | integer {i j : Int64} (h : i ≤ j) : AtMost (.integer i) (.integer j)
  | version {v w : Version} (h : (compare v w).isLE) : AtMost (.version v) (.version w)

theorem isLE_compare_text {s t : String} : (compare s t).isLE ↔ utf8 s ≤ utf8 t := by
  have hswap : compare t s = (compare s t).swap := Std.OrientedCmp.eq_swap
  rw [← List.not_lt, utf8_lt_utf8_iff, hswap]
  cases compare s t <;> decide

theorem compare_string (s t : String) : compare (string s) (string t) = compare s t := by
  show (compare s t).then .eq = _
  exact Ordering.then_eq

theorem compare_boolean (b c : Bool) : compare (boolean b) (boolean c) = compare b c := by
  show (compare b c).then .eq = _
  exact Ordering.then_eq

theorem compare_integer (i j : Int64) : compare (integer i) (integer j) = compare i j := by
  show (compare i j).then .eq = _
  exact Ordering.then_eq

/-- **Within a type, values are compared on the scale of the type.** -/
theorem isLE_compare_iff {v w : Value} (htype : v.type = w.type) :
    (compare v w).isLE ↔ v.AtMost w := by
  cases v <;> cases w <;> cases htype
  case string s t =>
    rw [compare_string, isLE_compare_text]
    exact ⟨.string, fun | .string h => h⟩
  case boolean b c =>
    have hle : (compare b c).isLE ↔ b ≤ c := by cases b <;> cases c <;> decide
    rw [compare_boolean, hle]
    exact ⟨.boolean, fun | .boolean h => h⟩
  case integer i j =>
    rw [compare_integer, Std.isLE_compare]
    exact ⟨.integer, fun | .integer h => h⟩
  case version v w => exact ⟨.version, fun | .version h => h⟩

end Value

/-! ## What values of documents denote -/

/-- What a value of a document denotes as a value of a type. -/
inductive Toml.Denotes : ValueType → Toml → Value → Prop
  | string (s : String) : Denotes .string (.string s) (.string s)
  | boolean (b : Bool) : Denotes .boolean (.boolean b) (.boolean b)
  | integer (n : Int64) : Denotes .integer (.integer n) (.integer n)
  | version {s : String} {v : Version} (h : Version.parse s = .ok v) :
    Denotes .version (.string s) (.version v)

/-- What a table key denotes as a value of a type. -/
inductive KeyDenotes : ValueType → String → Value → Prop
  | string (k : String) : KeyDenotes .string k (.string k)
  | true : KeyDenotes .boolean "true" (.boolean true)
  | false : KeyDenotes .boolean "false" (.boolean false)
  | integer {k : String} {n : Int64} (h : Decimal.parseInt64? k = some n) :
    KeyDenotes .integer k (.integer n)
  | version {k : String} {v : Version} (h : Version.parse k = .ok v) :
    KeyDenotes .version k (.version v)

namespace Attribute

variable {a : Attribute} {v : Value}

theorem readVersion_eq_ok_iff {text : String} :
    a.readVersion text = .ok v ↔ ∃ w, Version.parse text = .ok w ∧ v = .version w := by
  unfold readVersion
  cases Version.parse text with
  | error e => exact iff_of_false (fun h => (by cases h)) fun ⟨_, h, _⟩ => (by cases h)
  | ok w =>
    constructor
    · intro h; cases h; exact ⟨w, rfl, rfl⟩
    · rintro ⟨_, h, rfl⟩; cases h; rfl

/-- **A coercion gives the value that is denoted.** -/
theorem coerce_eq_ok_iff {t : Toml} : a.coerce t = .ok v ↔ t.Denotes a.type v := by
  obtain ⟨name, type⟩ := a
  constructor
  · intro h
    unfold coerce at h
    split at h
    · next htype => cases htype; cases h; exact .string _
    · next htype => cases htype; cases h; exact .boolean _
    · next htype => cases htype; cases h; exact .integer _
    · next htype =>
      cases htype
      obtain ⟨w, hw, rfl⟩ := readVersion_eq_ok_iff.mp h
      exact .version hw
    · cases h
  · intro h
    cases h with
    | version hw => exact readVersion_eq_ok_iff.mpr ⟨_, hw, rfl⟩
    | string | boolean | integer => rfl

theorem coerceKey_eq_ok_iff {k : String} : a.coerceKey k = .ok v ↔ KeyDenotes a.type k v := by
  obtain ⟨name, type⟩ := a
  constructor
  · intro h
    unfold coerceKey at h
    split at h
    · next htype => cases htype; cases h; exact .string _
    · next htype =>
      cases htype
      split at h
      · next hk => cases hk; cases h; exact .true
      · split at h
        · next hk => cases hk; cases h; exact .false
        · cases h
    · next htype =>
      cases htype
      split at h
      · next hn => cases h; exact .integer hn
      · cases h
    · next htype =>
      cases htype
      obtain ⟨w, hw, rfl⟩ := readVersion_eq_ok_iff.mp h
      exact .version hw
  · intro h
    cases h with
    | string | true | false => rfl
    | integer hn =>
      unfold coerceKey
      rw [hn]
      rfl
    | version hw => exact readVersion_eq_ok_iff.mpr ⟨_, hw, rfl⟩

end Attribute

end BuildInputs

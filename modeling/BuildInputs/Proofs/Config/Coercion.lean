import BuildInputs.Config.Schema
import BuildInputs.Proofs.Except

/-!
# Values of documents have the type of their attribute

A coercion either gives a value of the attribute's type or reports that the value of this attribute
is invalid. So the errors of a schema document name one of its attributes, or are those of the
checked schema.
-/

namespace BuildInputs

variable {err : ConfigError}

namespace Attribute

variable {a : Attribute} {t : Toml} {v : Value} {text : String}

/-- **A coercion gives a value of the attribute's type.** -/
theorem type_of_coerce (h : a.coerce t = .ok v) : v.type = a.type := by
  unfold coerce at h
  split at h
  · next ha => cases h; exact ha.symm
  · next ha => cases h; exact ha.symm
  · next ha => cases h; exact ha.symm
  · next ha =>
    unfold readVersion at h
    split at h
    · cases h; exact ha.symm
    · cases h
  · cases h

theorem error_of_readVersion (h : a.readVersion text = .error err) :
    ∃ m, err = .invalidValue a.name m := by
  unfold readVersion at h
  split at h
  · cases h
  · exact ⟨_, (Except.error.inj h).symm⟩

/-- **A coercion that fails names the attribute.** -/
theorem error_of_coerce (h : a.coerce t = .error err) : ∃ m, err = .invalidValue a.name m := by
  unfold coerce at h
  split at h
  case h_4 => exact error_of_readVersion h
  case h_5 => exact ⟨_, (Except.error.inj h).symm⟩
  all_goals cases h

theorem error_of_coerceKey (h : a.coerceKey text = .error err) :
    ∃ m, err = .invalidValue a.name m := by
  unfold coerceKey at h
  split at h
  · cases h
  · split at h
    · cases h
    · split at h
      · cases h
      · exact ⟨_, (Except.error.inj h).symm⟩
  · split at h
    · cases h
    · exact ⟨_, (Except.error.inj h).symm⟩
  · exact error_of_readVersion h

end Attribute

/-! ## Schemas -/

namespace AttributeConfig

variable {c : AttributeConfig}

theorem error_of_acceptedPairs {a : Attribute} {row : String × List Toml}
    (h : acceptedPairs a row = .error err) : ∃ m, err = .invalidValue a.name m := by
  rcases bind_eq_error.mp h with h | ⟨requested, -, h⟩
  · exact Attribute.error_of_coerceKey h
  · obtain ⟨v, -, h⟩ := exists_of_mapM_eq_error h
    rcases bind_eq_error.mp h with h | ⟨_, -, h⟩
    · exact Attribute.error_of_coerce h
    · cases h

theorem error_of_compatibilityRule (h : c.compatibilityRule = .error err) :
    ∃ m, err = .invalidValue c.name m := by
  unfold compatibilityRule at h
  split at h
  case h_4 =>
    rcases bind_eq_error.mp h with h | ⟨_, -, h⟩
    · obtain ⟨row, -, h⟩ := exists_of_mapM_eq_error h
      exact error_of_acceptedPairs h
    · cases h
  all_goals cases h

theorem error_of_preferenceRule (h : c.preferenceRule = .error err) :
    ∃ m, err = .invalidValue c.name m := by
  unfold preferenceRule at h
  split at h
  case h_5 =>
    rcases bind_eq_error.mp h with h | ⟨_, -, h⟩
    · obtain ⟨v, -, h⟩ := exists_of_mapM_eq_error h
      exact Attribute.error_of_coerce h
    · cases h
  all_goals cases h

theorem error_of_registration (h : c.registration = .error err) :
    ∃ m, err = .invalidValue c.name m := by
  rcases bind_eq_error.mp h with h | ⟨_, -, h⟩
  · exact error_of_compatibilityRule h
  rcases bind_eq_error.mp h with h | ⟨_, -, h⟩
  · exact error_of_preferenceRule h
  · cases h

end AttributeConfig

namespace SchemaConfig

variable {c : SchemaConfig}

theorem error_of_precedenceEntry {name : String} (h : c.precedenceEntry name = .error err) :
    err = .schema (.unknownPrecedence name) := by
  unfold precedenceEntry at h
  split at h
  · cases h
  · exact (Except.error.inj h).symm

/-- **A schema document fails at the value of an attribute or at the schema as a whole.** -/
theorem error_of_build (h : c.build = .error err) :
    (∃ a ∈ c.attributes, ∃ m, err = .invalidValue a.name m) ∨ ∃ cause, err = .schema cause := by
  rcases bind_eq_error.mp h with h | ⟨draft, -, h⟩
  · unfold draft at h
    rcases bind_eq_error.mp h with h | ⟨registrations, -, h⟩
    · obtain ⟨a, ha, h⟩ := exists_of_mapM_eq_error h
      exact .inl ⟨a, ha, AttributeConfig.error_of_registration h⟩
    · -- the precedence is the only other thing that can be wrong
      split at h
      · cases h
      rcases bind_eq_error.mp h with h | ⟨_, -, h⟩
      · obtain ⟨name, -, h⟩ := exists_of_mapM_eq_error h
        exact .inr ⟨_, error_of_precedenceEntry h⟩
      · cases h
  · obtain ⟨cause, -, rfl⟩ := mapError_eq_error_iff.mp h
    exact .inr ⟨cause, rfl⟩

end SchemaConfig

end BuildInputs

import BuildInputs.Component
import BuildInputs.Proofs.Text.Split

/-!
# Component identifiers

The identifier of a component starts with a keyword for its kind; its fields follow, each after a
colon. A path may hold further colons, as nothing follows it; the fields of a module may not.
Reading accepts exactly the identifiers of the components whose fields can be told apart in this way
(`parse_eq_ok_iff`), so a component has one identifier at most, and a text that is no identifier is
reported as it stands.
-/

namespace BuildInputs.Component

/-- A field that others follow or precede: not empty and without colons. -/
structure IsField (s : String) : Prop where
  ne_empty : s ≠ ""
  noColon : ':' ∉ s.toList

/-- The components that can be identified. -/
def Identifiable : Component → Prop
  | project path => path ≠ ""
  | module group name version => IsField group ∧ IsField name ∧ IsField version

/-- The text that identifies a component. -/
def identifier : Component → String
  | project path => "project:" ++ path
  | module group name version => "module:" ++ group ++ ":" ++ name ++ ":" ++ version

variable {s t : String} {c : Component} {cs : List Char}

/-! ## What is read after a keyword -/

theorem ofChars?_project (cs : List Char) :
    ofChars? ("project".toList ++ ':' :: cs) =
      if cs.isEmpty then none else some (project (String.ofList cs)) := by
  unfold ofChars?
  rw [Text.cutFirst?_append (by decide)]
  exact if_pos rfl

theorem ofChars?_module (cs : List Char) :
    ofChars? ("module".toList ++ ':' :: cs) =
      match Text.splitAll ':' cs with
      | [group, name, version] =>
        if group.isEmpty || name.isEmpty || version.isEmpty then none
        else some (module (String.ofList group) (String.ofList name) (String.ofList version))
      | _ => none := by
  unfold ofChars?
  rw [Text.cutFirst?_append (by decide)]
  exact (if_neg (by decide)).trans (if_pos rfl)

/-- Without one of the two keywords there is no component. -/
theorem keyword_of_ofChars? (h : ofChars? cs = some c) :
    ∃ rest, cs = "project".toList ++ ':' :: rest ∨ cs = "module".toList ++ ':' :: rest := by
  unfold ofChars? at h
  split at h
  · next keyword rest hcut =>
    obtain ⟨rfl, -⟩ := Text.cutFirst?_eq_some_iff.mp hcut
    split at h
    · next hkeyword => exact ⟨rest, Or.inl (hkeyword ▸ rfl)⟩
    · split at h
      · next hkeyword => exact ⟨rest, Or.inr (hkeyword ▸ rfl)⟩
      · cases h
  · cases h

/-! ## Reading -/

theorem isField_ofList {cs : List Char} (hne : cs.isEmpty = false) (hcolon : ':' ∉ cs) :
    IsField (String.ofList cs) := by
  constructor
  · cases cs with
    | nil => cases hne
    | cons c cs => simp
  · rwa [String.toList_ofList]

theorem identifier_module_toList (group name version : String) :
    (module group name version).identifier.toList =
      "module".toList ++ ':' ::
        [':'].intercalate [group.toList, name.toList, version.toList] := by
  simp [identifier, List.intercalate]

/-- What is read is the identifier of what it is read as. -/
theorem identifier_of_ofChars? (h : ofChars? cs = some c) :
    c.Identifiable ∧ cs = c.identifier.toList := by
  obtain ⟨rest, rfl | rfl⟩ := keyword_of_ofChars? h
  · rw [ofChars?_project] at h
    split at h
    · cases h
    · next hrest =>
      cases h
      refine ⟨?_, by simp [identifier]⟩
      show String.ofList rest ≠ ""
      simpa using hrest
  · rw [ofChars?_module] at h
    split at h
    · next group name version hparts =>
      split at h
      · cases h
      · next hne =>
        cases h
        simp only [Bool.or_eq_true, not_or, Bool.not_eq_true] at hne
        obtain ⟨hjoined, hcolon⟩ := (Text.splitAll_eq_iff (by simp)).mp hparts
        refine ⟨⟨?_, ?_, ?_⟩, ?_⟩
        · exact isField_ofList hne.1.1 (hcolon group (by simp))
        · exact isField_ofList hne.1.2 (hcolon name (by simp))
        · exact isField_ofList hne.2 (hcolon version (by simp))
        · rw [identifier_module_toList, hjoined]
          simp only [String.toList_ofList]
    · cases h

/-- A component that can be identified is read from its identifier. -/
theorem ofChars?_identifier (h : c.Identifiable) : ofChars? c.identifier.toList = some c := by
  cases c with
  | project path =>
    have hne : path ≠ "" := h
    have hpath : path.toList.isEmpty = false := by simpa using hne
    have hlist : (project path).identifier.toList = "project".toList ++ ':' :: path.toList := by
      simp [identifier]
    rw [hlist, ofChars?_project, hpath]
    simp
  | module group name version =>
    obtain ⟨hgroup, hname, hversion⟩ := h
    have hparts : Text.splitAll ':' ([':'].intercalate
        [group.toList, name.toList, version.toList]) =
        [group.toList, name.toList, version.toList] := by
      refine Text.splitAll_intercalate (by simp) ?_
      simp only [List.forall_mem_cons, List.not_mem_nil, false_imp_iff, implies_true, and_true]
      exact ⟨hgroup.noColon, hname.noColon, hversion.noColon⟩
    have hne {s : String} (h : IsField s) : s.toList.isEmpty = false := by simpa using h.ne_empty
    rw [identifier_module_toList, ofChars?_module, hparts]
    simp [hne hgroup, hne hname, hne hversion]

/-- **Reading accepts exactly the identifiers.** -/
theorem parse_eq_ok_iff : parse s = .ok c ↔ c.Identifiable ∧ s = c.identifier := by
  have hchars : parse s = .ok c ↔ ofChars? s.toList = some c := by
    unfold parse
    cases ofChars? s.toList with
    | none => exact iff_of_false (fun h => (by cases h)) fun h => (by cases h)
    | some c' =>
      constructor
      · intro h; cases h; rfl
      · intro h; cases h; rfl
  rw [hchars]
  constructor
  · intro h
    obtain ⟨hc, hs⟩ := identifier_of_ofChars? h
    exact ⟨hc, String.toList_inj.mp hs⟩
  · rintro ⟨hc, rfl⟩
    exact ofChars?_identifier hc

/-- **All other texts are reported as they stand.** -/
theorem parse_eq_error_iff {e : ComponentError} :
    parse s = .error e ↔ e = ⟨s⟩ ∧ ¬ ∃ c : Component, c.Identifiable ∧ s = c.identifier := by
  simp only [← parse_eq_ok_iff]
  unfold parse
  cases ofChars? s.toList with
  | none =>
    constructor
    · intro h; cases h; exact ⟨rfl, fun ⟨_, h⟩ => (by cases h)⟩
    · rintro ⟨rfl, -⟩; rfl
  | some c =>
    constructor
    · intro h; cases h
    · rintro ⟨-, h⟩; exact absurd ⟨c, rfl⟩ h

/--
**The grammar of component identifiers.** A text is read as a component exactly when it is
`project:` and a non-empty path, or `module:` and three non-empty fields without colons, joined by
colons, and these are the fields of the component; any other text is an error that holds the text.
Texts that are read as one component are equal, and the components that are read from some text are
exactly those that can be identified.
-/
theorem parse_grammar (s t : String) (c : Component) (e : ComponentError) :
    (parse s = .ok c ↔ c.Identifiable ∧ s = c.identifier) ∧
      (parse s = .error e ↔ e = ⟨s⟩ ∧ ¬ ∃ c : Component, c.Identifiable ∧ s = c.identifier) ∧
      (parse s = .ok c ∧ parse t = .ok c ↔ parse s = .ok c ∧ s = t) ∧
      ((∃ s, parse s = .ok c) ↔ c.Identifiable) := by
  refine ⟨parse_eq_ok_iff, parse_eq_error_iff, ?_, ?_⟩
  · constructor
    · rintro ⟨hs, ht⟩
      exact ⟨hs, (parse_eq_ok_iff.mp hs).2.trans (parse_eq_ok_iff.mp ht).2.symm⟩
    · rintro ⟨hs, rfl⟩
      exact ⟨hs, hs⟩
  · constructor
    · rintro ⟨s, h⟩
      exact (parse_eq_ok_iff.mp h).1
    · intro h
      exact ⟨c.identifier, parse_eq_ok_iff.mpr ⟨h, rfl⟩⟩

/-- A path may hold colons, the fields of a module may not. -/
example : parse "project::app:lib" = .ok (.project ":app:lib") ∧
    parse "module:a:b:c:d" = .error ⟨"module:a:b:c:d"⟩ := ⟨rfl, rfl⟩

end BuildInputs.Component

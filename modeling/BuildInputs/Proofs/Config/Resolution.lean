import BuildInputs.Config.Request
import BuildInputs.Proofs.Config.Coercion
import BuildInputs.Proofs.Matching.Errors
import BuildInputs.Proofs.Selection
import BuildInputs.Proofs.Text.ByteOrder

/-!
# Resolved requests have the types of the schema

Resolving a request gives every value the type under which its name is registered, so the matcher
never meets a value of another type. What is left to go wrong is a request for an attribute that the
schema does not know, and this is noticed whatever the candidates are.

1. While the settings of a table are read, the set holds the names that were read, and its values
   have the registered types (`Describes`). No name is read twice, so nothing is replaced.
2. The first entry of such a set that contradicts the schema has an unknown name, and the entries
   are in byte order (`checkRequest_eq_error_iff_isFirstUnknown`).
-/

namespace BuildInputs

open Digest

namespace Schema

variable {s : Schema} {c set set' : AttributeSet} {name : String} {v : Value} {t : Toml}
  {setting : String × Toml} {known : List String} {err : ConfigError}

/-! ## Sets that conform to a schema -/

theorem Conforms.empty : s.Conforms .empty := by
  intro r _ e he
  exact absurd (AttributeSet.entry?_eq_some_iff.mp he).1 SortedBy.mem_empty

theorem Conforms.insert (h : s.Conforms c)
    (hv : ∀ r, s.find? name = some r → v.type = r.key.type) :
    s.Conforms (c.insert ⟨name, v⟩) := by
  intro r hr e he
  obtain ⟨hmem, hname⟩ := AttributeSet.entry?_eq_some_iff.mp he
  rcases SortedBy.mem_insert.mp hmem with rfl | ⟨hmem, -⟩
  · exact hv r (SortedBy.find?_eq_some_iff.mpr ⟨hr, hname.symm⟩)
  · exact h r hr e (AttributeSet.entry?_eq_some_iff.mpr ⟨hmem, hname⟩)

/-- An entry of a conforming set can be looked up unless its name is unknown. -/
theorem Conforms.registrationOf_eq_error (h : s.Conforms c) {e : Entry} (he : e ∈ c.entries)
    {cause : MatchError} (herr : s.registrationOf e.key = .error cause) :
    s.find? e.name = none ∧ cause = .unregistered e.name := by
  rcases registrationOf_eq_error_iff.mp herr with hunknown | ⟨r, hfind, hne, -⟩
  · exact hunknown
  · obtain ⟨hr, hname⟩ := SortedBy.find?_eq_some_iff.mp hfind
    have htype := h r hr e (AttributeSet.entry?_eq_some_iff.mpr ⟨he, hname.symm⟩)
    exact absurd htype.symm hne

/-! ## Reading one setting -/

theorem keyOf_eq_ok {a : Attribute} (h : s.keyOf name t = .ok a) :
    a.name = name ∧ ∀ r, s.find? name = some r → r.key = a := by
  unfold keyOf at h
  split at h
  · next r hfind =>
    cases h
    exact ⟨(SortedBy.find?_eq_some_iff.mp hfind).2,
      fun r' hr' => congrArg _ (Option.some.inj (hr'.symm.trans hfind))⟩
  · next hfind _ =>
    cases h
    exact ⟨rfl, fun r hr => by rw [hfind] at hr; cases hr⟩
  · cases h

theorem error_of_keyOf (h : s.keyOf name t = .error err) : ∃ m, err = .invalidValue name m := by
  unfold keyOf at h
  split at h
  · cases h
  · cases h
  · exact ⟨_, (Except.error.inj h).symm⟩

theorem readEntry_eq_ok (hnew : set.entry? setting.1 = none)
    (h : s.readEntry set setting = .ok set') :
    ∃ v, set' = set.insert ⟨setting.1, v⟩ ∧
      ∀ r, s.find? setting.1 = some r → v.type = r.key.type := by
  obtain ⟨a, ha, h⟩ := bind_eq_ok.mp h
  obtain ⟨v, hv, h⟩ := bind_eq_ok.mp h
  obtain ⟨hname, hkey⟩ := keyOf_eq_ok ha
  have htype := Attribute.type_of_coerce hv
  rw [AttributeSet.put_of_entry?_eq_none (hname ▸ hnew) htype, hname] at h
  cases h
  exact ⟨v, rfl, fun r hr => hkey r hr ▸ htype⟩

/-- **Reading a setting under a new name fails only at its value.** -/
theorem error_of_readEntry (hnew : set.entry? setting.1 = none)
    (h : s.readEntry set setting = .error err) : ∃ m, err = .invalidValue setting.1 m := by
  rcases bind_eq_error.mp h with h | ⟨a, ha, h⟩
  · exact error_of_keyOf h
  obtain ⟨hname, -⟩ := keyOf_eq_ok ha
  rcases bind_eq_error.mp h with h | ⟨v, hv, h⟩
  · exact hname ▸ Attribute.error_of_coerce h
  · rw [AttributeSet.put_of_entry?_eq_none (hname ▸ hnew) (Attribute.type_of_coerce hv)] at h
    cases h

/-! ## Reading a table -/

/-- The set gives values to the names that were read, with the types of the schema. -/
structure Describes (s : Schema) (known : List String) (set : AttributeSet) : Prop where
  mem_iff : ∀ name, (∃ e ∈ set.entries, e.name = name) ↔ name ∈ known
  conforms : s.Conforms set

theorem Describes.empty : s.Describes [] .empty where
  mem_iff _ := ⟨fun ⟨_, he, _⟩ => absurd he SortedBy.mem_empty, fun h => (by cases h)⟩
  conforms := .empty

theorem Describes.entry?_eq_none (h : s.Describes known set) (hname : name ∉ known) :
    set.entry? name = none :=
  SortedBy.find?_eq_none_iff.mpr fun e he heq => hname ((h.mem_iff name).mp ⟨e, he, heq⟩)

/-- **One setting more is read.** -/
theorem Describes.readEntry (h : s.Describes known set) (hnew : setting.1 ∉ known)
    (hread : s.readEntry set setting = .ok set') : s.Describes (known ++ [setting.1]) set' := by
  obtain ⟨v, rfl, hv⟩ := readEntry_eq_ok (h.entry?_eq_none hnew) hread
  refine ⟨fun name => ?_, h.conforms.insert hv⟩
  rw [List.mem_append, List.mem_singleton, ← h.mem_iff name]
  constructor
  · rintro ⟨e, he, rfl⟩
    rcases SortedBy.mem_insert.mp he with rfl | ⟨he, -⟩
    · exact .inr rfl
    · exact .inl ⟨e, he, rfl⟩
  · rintro (⟨e, he, rfl⟩ | rfl)
    · refine ⟨e, SortedBy.mem_insert.mpr (.inr ⟨he, fun heq => hnew ?_⟩), rfl⟩
      exact (h.mem_iff setting.1).mp ⟨e, he, heq⟩
    · exact ⟨_, SortedBy.mem_insert.mpr (.inl rfl), rfl⟩

/-- The names of the settings of a table. -/
def settingNames (settings : List (String × Toml)) : List String := settings.map Prod.fst

variable {settings : List (String × Toml)}

theorem append_settingNames_cons : known ++ settingNames (setting :: settings) =
    known ++ [setting.1] ++ settingNames settings :=
  List.append_cons known setting.1 (settingNames settings)

theorem notMem_of_nodup (h : (known ++ settingNames (setting :: settings)).Nodup) :
    setting.1 ∉ known :=
  fun hmem => (List.nodup_append.mp h).2.2 _ hmem _ List.mem_cons_self rfl

/-- **All settings are read**, if no name occurs twice. -/
theorem Describes.foldlM_readEntry (h : s.Describes known set)
    (hdistinct : (known ++ settingNames settings).Nodup)
    (hread : settings.foldlM s.readEntry set = .ok set') :
    s.Describes (known ++ settingNames settings) set' := by
  induction settings generalizing known set with
  | nil =>
    cases hread
    rwa [settingNames, List.map_nil, List.append_nil]
  | cons setting settings ih =>
    obtain ⟨next, hnext, hread⟩ := bind_eq_ok.mp hread
    have hnew := notMem_of_nodup hdistinct
    rw [append_settingNames_cons] at hdistinct ⊢
    exact ih (h.readEntry hnew hnext) hdistinct hread

/-- Reading settings under distinct names fails at the value of one of them. -/
theorem Describes.error_of_foldlM_readEntry (h : s.Describes known set)
    (hdistinct : (known ++ settingNames settings).Nodup)
    (hread : settings.foldlM s.readEntry set = .error err) :
    ∃ setting ∈ settings, ∃ m, err = .invalidValue setting.1 m := by
  induction settings generalizing known set with
  | nil => cases hread
  | cons setting settings ih =>
    have hnew := notMem_of_nodup hdistinct
    rw [append_settingNames_cons] at hdistinct
    rcases bind_eq_error.mp hread with hread | ⟨next, hnext, hread⟩
    · exact ⟨setting, List.mem_cons_self, error_of_readEntry (h.entry?_eq_none hnew) hread⟩
    · obtain ⟨setting', hmem, herr⟩ := ih (h.readEntry hnew hnext) hdistinct hread
      exact ⟨setting', List.mem_cons_of_mem _ hmem, herr⟩

theorem describes_of_readSet {table : Toml.Settings Toml} (h : s.readSet table = .ok set) :
    s.Describes (settingNames table.toList) set :=
  Describes.empty.foldlM_readEntry table.nodup_map_key h

theorem error_of_readSet {table : Toml.Settings Toml} (h : s.readSet table = .error err) :
    ∃ setting ∈ table.toList, ∃ m, err = .invalidValue setting.1 m :=
  Describes.empty.error_of_foldlM_readEntry table.nodup_map_key h

/-! ## Unknown names -/

/-- The least name in byte order, of those given a value, that the schema does not know. -/
structure IsFirstUnknown (s : Schema) (names : List String) (name : String) : Prop where
  mem : name ∈ names
  unknown : s.find? name = none
  least : ∀ other ∈ names, s.find? other = none → utf8 name ≤ utf8 other

theorem IsFirstUnknown.unique {name' : String} (h : s.IsFirstUnknown known name)
    (h' : s.IsFirstUnknown known name') : name = name' :=
  utf8_inj (List.le_antisymm (h.least name' h'.mem h'.unknown) (h'.least name h.mem h.unknown))

/-- A request that conforms to the schema fails at its first unknown name. -/
theorem isFirstUnknown_of_checkRequest (h : s.Describes known set) {e : MatchError}
    (herr : s.checkRequest set.entries = .error e) :
    ∃ name, e = .unregistered name ∧ s.IsFirstUnknown known name := by
  obtain ⟨entry, hfirst⟩ := checkRequest_eq_error_iff_firstMisuse.mp herr
  obtain ⟨hunknown, rfl⟩ := h.conforms.registrationOf_eq_error hfirst.mem
    (registrationOf_eq_error_iff_misuses.mpr hfirst.misuses)
  have hknown : entry.name ∈ known := (h.mem_iff _).mp ⟨entry, hfirst.mem, rfl⟩
  refine ⟨entry.name, rfl, hknown, hunknown, fun other hother hnone => ?_⟩
  obtain ⟨e', he', rfl⟩ := (h.mem_iff other).mpr hother
  -- an entry with a lesser name would be the first to fail
  refine List.not_lt.mp fun hless => ?_
  have hless : e'.name < entry.name := compareOfLessAndEq_eq_lt.mp (utf8_lt_utf8_iff.mp hless)
  exact hfirst.first e' he' hless _ (.unregistered (SortedBy.find?_eq_none_iff.mp hnone))

/-- An unknown name does not pass, so there is a first one. -/
theorem exists_checkRequest_eq_error (h : s.Describes known set) (hmem : name ∈ known)
    (hunknown : s.find? name = none) :
    ∃ first, s.checkRequest set.entries = .error (.unregistered first) ∧
      s.IsFirstUnknown known first := by
  cases hcheck : s.checkRequest set.entries with
  | ok _ =>
    obtain ⟨e, he, rfl⟩ := (h.mem_iff name).mpr hmem
    obtain ⟨r, hr⟩ := checkRequest_eq_ok_iff.mp hcheck e he
    exact absurd hr (registrationOf_ne_ok hunknown)
  | error e =>
    obtain ⟨first, rfl, hfirst⟩ := isFirstUnknown_of_checkRequest h hcheck
    exact ⟨first, rfl, hfirst⟩

/-- **The first unknown name is the error of a request that conforms to the schema.** -/
theorem checkRequest_eq_error_iff_isFirstUnknown (h : s.Describes known set) :
    s.checkRequest set.entries = .error (.unregistered name) ↔ s.IsFirstUnknown known name := by
  constructor
  · intro herr
    obtain ⟨name', he, hfirst⟩ := isFirstUnknown_of_checkRequest h herr
    cases he
    exact hfirst
  · intro hfirst
    obtain ⟨name', herr, hfirst'⟩ := exists_checkRequest_eq_error h hfirst.mem hfirst.unknown
    rw [herr, hfirst.unique hfirst']

/-! ## Candidates -/

variable {candidate : CandidateConfig}

theorem conforms_of_readCandidate {v : Variant} (h : s.readCandidate candidate = .ok v) :
    s.Conforms v.attributes := by
  obtain ⟨component, -, h⟩ := bind_eq_ok.mp h
  obtain ⟨attributes, hread, h⟩ := bind_eq_ok.mp h
  cases h
  exact (describes_of_readSet hread).conforms

theorem error_of_readCandidate (h : s.readCandidate candidate = .error err) :
    (∃ cause, err = .component candidate.name cause) ∨
      ∃ setting ∈ candidate.attributes.toList, ∃ m, err = .invalidValue setting.1 m := by
  rcases bind_eq_error.mp h with h | ⟨component, -, h⟩
  · obtain ⟨cause, -, rfl⟩ := mapError_eq_error_iff.mp h
    exact .inl ⟨cause, rfl⟩
  rcases bind_eq_error.mp h with h | ⟨attributes, -, h⟩
  · exact .inr (error_of_readSet h)
  · cases h

end Schema

/-! ## Requests -/

namespace RequestConfig

open Schema (settingNames)

variable {c : RequestConfig} {r : MatchRequest} {err : ConfigError}

/-- What can be wrong with a request document. -/
inductive Fault (c : RequestConfig) : ConfigError → Prop
  /-- The schema is not well formed. -/
  | schema (cause : SchemaError) : Fault c (.schema cause)
  /-- A rule of an attribute has a value that the attribute cannot have. -/
  | rule {a : AttributeConfig} (ha : a ∈ c.schema.attributes) (m : Mismatch) :
    Fault c (.invalidValue a.name m)
  /-- The request gives an attribute a value that it cannot have. -/
  | request {setting : String × Toml} (hmem : setting ∈ c.request.toList) (m : Mismatch) :
    Fault c (.invalidValue setting.1 m)
  /-- A candidate belongs to nothing that can be identified. -/
  | component {candidate : CandidateConfig} (hcandidate : candidate ∈ c.candidates)
    (cause : ComponentError) : Fault c (.component candidate.name cause)
  /-- A candidate gives an attribute a value that it cannot have. -/
  | candidate {candidate : CandidateConfig} (hcandidate : candidate ∈ c.candidates)
    {setting : String × Toml} (hmem : setting ∈ candidate.attributes.toList) (m : Mismatch) :
    Fault c (.invalidValue setting.1 m)

/-- **A request that cannot be resolved has a fault in the document**, which the error names. -/
theorem fault_of_resolve (h : c.resolve = .error err) : c.Fault err := by
  rcases bind_eq_error.mp h with h | ⟨schema, -, h⟩
  · rcases SchemaConfig.error_of_build h with ⟨a, ha, m, rfl⟩ | ⟨cause, rfl⟩
    · exact .rule ha m
    · exact .schema cause
  rcases bind_eq_error.mp h with h | ⟨requested, -, h⟩
  · obtain ⟨setting, hmem, m, rfl⟩ := Schema.error_of_readSet h
    exact .request hmem m
  rcases bind_eq_error.mp h with h | ⟨candidates, -, h⟩
  · obtain ⟨candidate, hcandidate, h⟩ := exists_of_mapM_eq_error h
    rcases Schema.error_of_readCandidate h with ⟨cause, rfl⟩ | ⟨setting, hmem, m, rfl⟩
    · exact .component hcandidate cause
    · exact .candidate hcandidate hmem m
  · cases h

/-- **What is resolved conforms to the schema.** -/
theorem conforms_of_resolve (h : c.resolve = .ok r) :
    r.schema.Describes (settingNames c.request.toList) r.requested ∧
      ∀ v ∈ r.candidates, r.schema.Conforms v.attributes := by
  obtain ⟨schema, -, h⟩ := bind_eq_ok.mp h
  obtain ⟨requested, hrequested, h⟩ := bind_eq_ok.mp h
  obtain ⟨candidates, hcandidates, h⟩ := bind_eq_ok.mp h
  cases h
  refine ⟨Schema.describes_of_readSet hrequested, fun v hv => ?_⟩
  obtain ⟨candidate, -, hread⟩ := (mem_iff_of_mapM_eq_ok hcandidates).mp hv
  exact Schema.conforms_of_readCandidate hread

/-- Among any variants, the request can only fail at its first unknown name. -/
theorem selectVariant_eq_unregistered_iff (h : c.resolve = .ok r) {filter : ComponentFilter}
    {variants : List Variant} {name : String} :
    r.schema.selectVariant filter variants r.requested = .error (.mismatch (.unregistered name)) ↔
      r.schema.IsFirstUnknown (settingNames c.request.toList) name := by
  rw [Schema.selectVariant_eq_mismatch_iff, Schema.select_eq_unregistered_iff]
  exact Schema.checkRequest_eq_error_iff_isFirstUnknown (conforms_of_resolve h).1

/-- **The errors of a resolved request are unknown names.** -/
theorem unregistered_of_select (h : c.resolve = .ok r) {e : MatchError}
    (herr : r.select = .error (.mismatch e)) : ∃ name, e = .unregistered name := by
  obtain ⟨hrequested, hcandidates⟩ := conforms_of_resolve h
  have hselect := Schema.selectVariant_eq_mismatch_iff.mp herr
  cases hcheck : r.schema.checkRequest r.requested.entries with
  | error e' =>
    obtain ⟨name, rfl, -⟩ := Schema.isFirstUnknown_of_checkRequest hrequested hcheck
    cases (Schema.select_eq_error_of_checkRequest hcheck).symm.trans hselect
    exact ⟨name, rfl⟩
  | ok _ =>
    obtain ⟨v, hv, hcontra⟩ := Schema.contradicts_of_select_eq_error hcheck hselect
    exact absurd hcontra (hcandidates v (List.mem_of_mem_filter hv)).not_contradicts

/--
**Resolved requests are well typed.** Resolving puts attribute sets together without a conflict.
What it returns is matched without an error of types or values. An attribute that is not registered
is an error if and only if the table of the request names one, and then the error names the first
in byte order, whatever variants and filter it is matched with.
-/
theorem resolve_wellTyped (c : RequestConfig) :
    (∀ cause, c.resolve ≠ .error (.attribute cause)) ∧
      ∀ r, c.resolve = .ok r →
        (∀ key found, r.select ≠ .error (.mismatch (.typeMismatch key found))) ∧
        (∀ cause, r.select ≠ .error (.mismatch (.value cause))) ∧
        ∀ filter variants,
          ((∃ name, r.schema.selectVariant filter variants r.requested =
              .error (.mismatch (.unregistered name))) ↔
            ∃ name ∈ settingNames c.request.toList, r.schema.find? name = none) ∧
          ∀ name, r.schema.selectVariant filter variants r.requested =
              .error (.mismatch (.unregistered name)) ↔
            r.schema.IsFirstUnknown (settingNames c.request.toList) name := by
  refine ⟨fun cause h => (by cases fault_of_resolve h), fun r h => ?_⟩
  refine ⟨fun key found herr => ?_, fun cause herr => ?_, fun filter variants => ⟨?_, ?_⟩⟩
  · obtain ⟨name, he⟩ := unregistered_of_select h herr
    cases he
  · obtain ⟨name, he⟩ := unregistered_of_select h herr
    cases he
  · simp only [selectVariant_eq_unregistered_iff h]
    constructor
    · rintro ⟨name, hfirst⟩
      exact ⟨name, hfirst.mem, hfirst.unknown⟩
    · rintro ⟨name, hmem, hunknown⟩
      obtain ⟨first, -, hfirst⟩ :=
        Schema.exists_checkRequest_eq_error (conforms_of_resolve h).1 hmem hunknown
      exact ⟨first, hfirst⟩
  · exact fun name => selectVariant_eq_unregistered_iff h

/-- A request for two attributes that the schema does not know. -/
def unknownAttributes : RequestConfig where
  schema := { precedence := some ["os"], attributes := [{ name := "os", type := .string }] }
  request := .ofList [("zone", .string "eu"), ("os", .string "linux"), ("jvm", .integer 17)]
  candidates := [⟨"project:app", "main", .singleton ("os", .string "linux")⟩]

/-- The error names the first of the two. -/
theorem resolve_wellTyped_unknownAttributes : ∃ r, unknownAttributes.resolve = .ok r ∧
    r.select = .error (.mismatch (.unregistered "jvm")) := by
  refine ⟨_, rfl, ((((resolve_wellTyped unknownAttributes).2 _ rfl).2.2 _ _).2 "jvm").mpr ?_⟩
  have hleast : ∀ other ∈ ["jvm", "os", "zone"], utf8 "jvm" ≤ utf8 other := by decide
  exact ⟨by decide, rfl, fun other hother _ => hleast other hother⟩

end RequestConfig

end BuildInputs

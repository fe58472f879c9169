import BuildInputs.Proofs.Config.Denotation
import BuildInputs.Proofs.Matching.Rounds
import BuildInputs.Proofs.Schema

/-!
# Schema documents mean what they say

A schema document is well formed when its values are of the declared types, its names are distinct,
its precedence is there and lists declared names once, and no boolean attribute asks for an order.
Exactly then there is a schema, and the schema can be read off the document.

1. A rule of a document is translated when its values denote something
   (`exists_registration_iff`), and then it accepts what the document says
   (`accepts_iff_of_compatibilityRule`).
2. A draft has the declared attributes one by one (`draft_eq_ok_iff`), so it can be frozen exactly
   when the document is well formed (`exists_build_iff_wellFormed`).
3. Freezing keeps what was registered, so the schema has what the document declares
   (`describes_of_build`).
-/

namespace BuildInputs

/-! ## Rules -/

namespace AttributeConfig

/-- The values in the rules of the attribute denote values of its type. -/
structure ValuesFit (c : AttributeConfig) : Prop where
  rows : ∀ rows, c.compatibility = .compatibleValues rows → ∀ row ∈ rows.toList,
    (∃ v, KeyDenotes c.type row.1 v) ∧ ∀ t ∈ row.2, ∃ v, t.Denotes c.type v
  order : ∀ order, c.preference = .listed order → ∀ t ∈ order, ∃ v, t.Denotes c.type v

/-- One of the rules asks which values are higher. -/
def AsksForOrder (c : AttributeConfig) : Prop :=
  c.compatibility = .atMost ∨ c.compatibility = .atLeast ∨
    c.preference = .highest ∨ c.preference = .lowest

/-- The candidate value satisfies the requested one, as the document says. -/
def Accepts (c : AttributeConfig) (candidate requested : Value) : Prop :=
  match c.compatibility with
  | .equality => candidate = requested
  | .atMost => candidate.AtMost requested
  | .atLeast => requested.AtMost candidate
  | .compatibleValues rows => candidate = requested ∨
    ∃ row ∈ rows.toList, KeyDenotes c.type row.1 requested ∧ ∃ t ∈ row.2, t.Denotes c.type candidate

section Rows

variable {a : Attribute} {row : String × List Toml}

theorem exists_acceptedPairs_iff : (∃ pairs, acceptedPairs a row = .ok pairs) ↔
    (∃ v, KeyDenotes a.type row.1 v) ∧ ∀ t ∈ row.2, ∃ v, t.Denotes a.type v := by
  have hpair (v : Value) (t : Toml) :
      (∃ p, (do return (v, ← a.coerce t) : Except ConfigError (Value × Value)) = .ok p) ↔
        ∃ w, t.Denotes a.type w := by
    rw [exists_bind_eq_ok_iff]
    exact exists_congr fun w => (and_iff_left ⟨_, rfl⟩).trans Attribute.coerce_eq_ok_iff
  unfold acceptedPairs
  simp only [exists_bind_eq_ok_iff, exists_mapM_eq_ok_iff, hpair, Attribute.coerceKey_eq_ok_iff,
    exists_and_right]

/-- The pairs of a row are what its key denotes with what each of its values does. -/
theorem mem_acceptedPairs {pairs : List (Value × Value)} (h : acceptedPairs a row = .ok pairs)
    {requested candidate : Value} : (requested, candidate) ∈ pairs ↔
      KeyDenotes a.type row.1 requested ∧ ∃ t ∈ row.2, t.Denotes a.type candidate := by
  obtain ⟨key, hkey, hpairs⟩ := bind_eq_ok.mp h
  rw [mem_iff_of_mapM_eq_ok hpairs]
  constructor
  · rintro ⟨t, ht, h⟩
    obtain ⟨v, hv, h⟩ := bind_eq_ok.mp h
    cases h
    exact ⟨Attribute.coerceKey_eq_ok_iff.mp hkey, t, ht, Attribute.coerce_eq_ok_iff.mp hv⟩
  · rintro ⟨hrequested, t, ht, hcandidate⟩
    -- a key denotes one value
    obtain rfl : key = requested :=
      Except.ok.inj (hkey.symm.trans (Attribute.coerceKey_eq_ok_iff.mpr hrequested))
    exact ⟨t, ht, bind_eq_ok.mpr ⟨_, Attribute.coerce_eq_ok_iff.mpr hcandidate, rfl⟩⟩

end Rows

variable {c : AttributeConfig} {rule : Compatibility} {preference : Preference} {r : Registration}

theorem exists_compatibilityRule_iff : (∃ rule, c.compatibilityRule = .ok rule) ↔
    ∀ rows, c.compatibility = .compatibleValues rows → ∀ row ∈ rows.toList,
      (∃ v, KeyDenotes c.type row.1 v) ∧ ∀ t ∈ row.2, ∃ v, t.Denotes c.type v := by
  unfold compatibilityRule
  cases c.compatibility with
  | compatibleValues rows =>
    have hrows : (∃ pairs, rows.toList.mapM (acceptedPairs c.key) = .ok pairs) ↔
        ∀ row ∈ rows.toList,
          (∃ v, KeyDenotes c.type row.1 v) ∧ ∀ t ∈ row.2, ∃ v, t.Denotes c.type v :=
      exists_mapM_eq_ok_iff.trans (forall₂_congr fun _ _ => exists_acceptedPairs_iff)
    simp only [CompatibilityConfig.compatibleValues.injEq, forall_eq', exists_bind_eq_ok_iff]
    exact (exists_congr fun _ => and_iff_left ⟨_, rfl⟩).trans hrows
  | equality | atMost | atLeast => exact ⟨fun _ _ h => (by cases h), fun _ => ⟨_, rfl⟩⟩

theorem exists_preferenceRule_iff : (∃ preference, c.preferenceRule = .ok preference) ↔
    ∀ order, c.preference = .listed order → ∀ t ∈ order, ∃ v, t.Denotes c.type v := by
  unfold preferenceRule
  cases c.preference with
  | listed order =>
    have horder : (∃ values, order.mapM c.key.coerce = .ok values) ↔
        ∀ t ∈ order, ∃ v, t.Denotes c.type v :=
      exists_mapM_eq_ok_iff.trans
        (forall₂_congr fun _ _ => exists_congr fun _ => Attribute.coerce_eq_ok_iff)
    simp only [PreferenceConfig.listed.injEq, forall_eq', exists_bind_eq_ok_iff]
    exact (exists_congr fun _ => and_iff_left ⟨_, rfl⟩).trans horder
  | indifferent | requested | highest | lowest =>
    exact ⟨fun _ _ h => (by cases h), fun _ => ⟨_, rfl⟩⟩

/-- **A rule accepts what the document says.** -/
theorem accepts_iff_of_compatibilityRule (h : c.compatibilityRule = .ok rule)
    {candidate requested : Value} (hcandidate : candidate.type = c.type)
    (hrequested : requested.type = c.type) :
    rule.accepts candidate requested = true ↔ c.Accepts candidate requested := by
  have htype := hcandidate.trans hrequested.symm
  unfold compatibilityRule at h
  unfold Accepts
  cases hrule : c.compatibility with
  | equality =>
    rw [hrule] at h
    cases h
    exact decide_eq_true_iff
  | atMost =>
    rw [hrule] at h
    cases h
    exact Value.isLE_compare_iff htype
  | atLeast =>
    rw [hrule] at h
    cases h
    have hswap : compare requested candidate = (compare candidate requested).swap :=
      Std.OrientedCmp.eq_swap
    show (compare candidate requested).isGE = true ↔ _
    rw [← Value.isLE_compare_iff htype.symm, hswap, Ordering.isLE_swap]
  | compatibleValues rows =>
    rw [hrule] at h
    obtain ⟨pairs, hpairs, h⟩ := bind_eq_ok.mp h
    cases h
    show (candidate = requested || pairs.flatten.contains (requested, candidate)) = true ↔ _
    rw [Bool.or_eq_true, decide_eq_true_iff, List.contains_iff_mem, List.mem_flatten]
    refine or_congr_right ?_
    constructor
    · rintro ⟨ps, hps, hmem⟩
      obtain ⟨row, hrow, h⟩ := (mem_iff_of_mapM_eq_ok hpairs).mp hps
      exact ⟨row, hrow, (mem_acceptedPairs h).mp hmem⟩
    · rintro ⟨row, hrow, hmem⟩
      obtain ⟨ps, h⟩ := exists_mapM_eq_ok_iff.mp ⟨pairs, hpairs⟩ row hrow
      exact ⟨ps, (mem_iff_of_mapM_eq_ok hpairs).mpr ⟨row, hrow, h⟩, (mem_acceptedPairs h).mpr hmem⟩

/-! ## Registrations -/

theorem registration_eq_ok_iff : c.registration = .ok r ↔
    ∃ rule preference, c.compatibilityRule = .ok rule ∧ c.preferenceRule = .ok preference ∧
      r = ⟨c.key, c.mandatory, rule, preference⟩ := by
  constructor
  · intro h
    obtain ⟨rule, hrule, h⟩ := bind_eq_ok.mp h
    obtain ⟨preference, hpreference, h⟩ := bind_eq_ok.mp h
    cases h
    exact ⟨rule, preference, hrule, hpreference, rfl⟩
  · rintro ⟨rule, preference, hrule, hpreference, rfl⟩
    exact bind_eq_ok.mpr ⟨rule, hrule, bind_eq_ok.mpr ⟨preference, hpreference, rfl⟩⟩

/-- **An attribute can be registered when the values in its rules fit.** -/
theorem exists_registration_iff : (∃ r, c.registration = .ok r) ↔ c.ValuesFit := by
  simp only [registration_eq_ok_iff]
  constructor
  · rintro ⟨_, rule, preference, hrule, hpreference, -⟩
    exact ⟨exists_compatibilityRule_iff.mp ⟨rule, hrule⟩,
      exists_preferenceRule_iff.mp ⟨preference, hpreference⟩⟩
  · intro h
    obtain ⟨rule, hrule⟩ := exists_compatibilityRule_iff.mpr h.rows
    obtain ⟨preference, hpreference⟩ := exists_preferenceRule_iff.mpr h.order
    exact ⟨_, rule, preference, hrule, hpreference, rfl⟩

theorem key_of_registration (h : c.registration = .ok r) : r.key = c.key := by
  obtain ⟨rule, preference, -, -, rfl⟩ := registration_eq_ok_iff.mp h
  rfl

theorem needsOrdering_of_compatibilityRule (h : c.compatibilityRule = .ok rule) :
    rule.needsOrdering = true ↔ c.compatibility = .atMost ∨ c.compatibility = .atLeast := by
  unfold compatibilityRule at h
  cases hrule : c.compatibility with
  | compatibleValues rows =>
    rw [hrule] at h
    obtain ⟨pairs, -, h⟩ := bind_eq_ok.mp h
    cases h
    simp [Compatibility.needsOrdering]
  | equality | atMost | atLeast =>
    rw [hrule] at h
    cases h
    simp [Compatibility.needsOrdering]

theorem needsOrdering_of_preferenceRule (h : c.preferenceRule = .ok preference) :
    preference.needsOrdering = true ↔ c.preference = .highest ∨ c.preference = .lowest := by
  unfold preferenceRule at h
  cases hrule : c.preference with
  | listed order =>
    rw [hrule] at h
    obtain ⟨values, -, h⟩ := bind_eq_ok.mp h
    cases h
    simp [Preference.needsOrdering]
  | indifferent | requested | highest | lowest =>
    rw [hrule] at h
    cases h
    simp [Preference.needsOrdering]

/-- A registration passes the check of its rules unless it asks for an order of booleans. -/
theorem orderingProblem?_of_registration (h : c.registration = .ok r) :
    r.orderingProblem? = none ↔ (c.type = .boolean → ¬ c.AsksForOrder) := by
  obtain ⟨rule, preference, hrule, hpreference, rfl⟩ := registration_eq_ok_iff.mp h
  rw [Registration.orderingProblem?_eq_none_iff]
  refine imp_congr_right fun _ => ?_
  have hcompatibility := needsOrdering_of_compatibilityRule hrule
  have hpreference := needsOrdering_of_preferenceRule hpreference
  unfold AsksForOrder
  rw [← or_assoc, ← hcompatibility, ← hpreference, not_or, Bool.not_eq_true, Bool.not_eq_true]

end AttributeConfig

/-! ## Documents -/

namespace SchemaConfig

/-- What is asked of a schema document. -/
structure WellFormed (c : SchemaConfig) : Prop where
  values : ∀ a ∈ c.attributes, a.ValuesFit
  distinct : (c.attributes.map AttributeConfig.name).Nodup
  precedence : ∃ names, c.precedence = some names ∧ names.Nodup ∧
    ∀ n ∈ names, n ∈ c.attributes.map AttributeConfig.name
  ordered : ∀ a ∈ c.attributes, a.type = .boolean → ¬ a.AsksForOrder

/-- The schema is the one that the document describes. -/
structure Describes (c : SchemaConfig) (s : Schema) : Prop where
  keys : s.keys.Perm (c.attributes.map AttributeConfig.key)
  mandatory : ∀ a ∈ c.attributes, s.isMandatory a.name = a.mandatory
  precedence : ∃ names, c.precedence = some names ∧
    List.Forall₂ (fun n k => ∃ a ∈ c.attributes, a.name = n ∧ a.key = k) names s.precedence
  matching : ∀ a ∈ c.attributes, ∀ candidate requested : Value,
    candidate.type = a.type → requested.type = a.type →
      ∃ accepted, s.isMatchingValue a.key candidate requested = .ok accepted ∧
        (accepted = true ↔ a.Accepts candidate requested)

variable {c : SchemaConfig} {d : SchemaDraft} {s : Schema} {a : AttributeConfig} {n : String}
  {k : Attribute}

/-! ### Precedence -/

theorem precedenceEntry_eq_ok_iff : c.precedenceEntry n = .ok k ↔ c.declared? n = some k := by
  unfold precedenceEntry
  cases c.declared? n with
  | none => exact iff_of_false (fun h => (by cases h)) fun h => (by cases h)
  | some k' =>
    constructor
    · intro h; cases h; rfl
    · intro h; cases h; rfl

/-- What a precedence entry means is declared under its name. -/
theorem declared_of_precedenceEntry (h : c.precedenceEntry n = .ok k) :
    ∃ a ∈ c.attributes, a.name = n ∧ a.key = k := by
  obtain ⟨a, ha, rfl⟩ := Option.map_eq_some_iff.mp (precedenceEntry_eq_ok_iff.mp h)
  have hname : a.name = n := by simpa using List.find?_some ha
  exact ⟨a, List.mem_reverse.mp (List.mem_of_find?_eq_some ha), hname, rfl⟩

theorem exists_precedenceEntry_iff :
    (∃ k, c.precedenceEntry n = .ok k) ↔ n ∈ c.attributes.map AttributeConfig.name := by
  constructor
  · rintro ⟨k, hk⟩
    obtain ⟨a, ha, rfl, -⟩ := declared_of_precedenceEntry hk
    exact List.mem_map_of_mem ha
  · intro h
    obtain ⟨a, ha, rfl⟩ := List.mem_map.mp h
    have hfound : (c.attributes.reverse.find? fun b => b.name = a.name).isSome :=
      List.find?_isSome.mpr ⟨a, List.mem_reverse.mpr ha, by simp⟩
    obtain ⟨b, hb⟩ := Option.isSome_iff_exists.mp hfound
    exact ⟨b.key, precedenceEntry_eq_ok_iff.mpr (congrArg (Option.map AttributeConfig.key) hb)⟩

/-! ### Drafts -/

/-- **A draft has the attributes of the document one by one.** -/
theorem draft_eq_ok_iff : c.draft = .ok d ↔
    c.attributes.mapM AttributeConfig.registration = .ok d.registrations ∧
      ((c.precedence = none ∧ d.precedence = none) ∨
        ∃ names keys, c.precedence = some names ∧ names.mapM c.precedenceEntry = .ok keys ∧
          d.precedence = some keys) := by
  unfold draft
  rw [bind_eq_ok]
  cases c.precedence with
  | none =>
    constructor
    · rintro ⟨rs, hrs, h⟩
      cases h
      exact ⟨hrs, .inl ⟨rfl, rfl⟩⟩
    · rintro ⟨hrs, ⟨-, hd⟩ | ⟨_, _, h, -⟩⟩
      · exact ⟨_, hrs, congrArg (fun p => Except.ok (SchemaDraft.mk d.registrations p)) hd.symm⟩
      · cases h
  | some names =>
    constructor
    · rintro ⟨rs, hrs, h⟩
      obtain ⟨keys, hkeys, h⟩ := bind_eq_ok.mp h
      cases h
      exact ⟨hrs, .inr ⟨names, keys, rfl, hkeys, rfl⟩⟩
    · rintro ⟨hrs, ⟨h, -⟩ | ⟨_, keys, ⟨⟩, hkeys, hd⟩⟩
      · cases h
      · refine ⟨_, hrs, bind_eq_ok.mpr ⟨keys, hkeys, ?_⟩⟩
        exact congrArg (fun p => Except.ok (SchemaDraft.mk d.registrations p)) hd.symm

theorem build_eq_ok_iff : c.build = .ok s ↔ ∃ d, c.draft = .ok d ∧ d.build = .ok s := by
  unfold build
  rw [bind_eq_ok]
  exact exists_congr fun d => and_congr_right fun _ => mapError_eq_ok_iff

theorem map_key_of_draft (h : c.draft = .ok d) :
    d.registrations.map Registration.key = c.attributes.map AttributeConfig.key :=
  map_eq_map_of_mapM_eq_ok (draft_eq_ok_iff.mp h).1 fun _ _ => AttributeConfig.key_of_registration

theorem map_name_of_draft (h : c.draft = .ok d) :
    d.registrations.map Registration.name = c.attributes.map AttributeConfig.name := by
  have hkeys := congrArg (List.map Attribute.name) (map_key_of_draft h)
  rwa [List.map_map, List.map_map] at hkeys

/-- The precedence of a draft is that of the document, name by name. -/
theorem precedence_of_draft (h : c.draft = .ok d) {keys : List Attribute}
    (hkeys : d.precedence = some keys) : ∃ names, c.precedence = some names ∧
      names.mapM c.precedenceEntry = .ok keys := by
  rcases (draft_eq_ok_iff.mp h).2 with ⟨-, hnone⟩ | ⟨names, keys', hnames, hkeys', hsome⟩
  · rw [hnone] at hkeys
    cases hkeys
  · rw [hsome] at hkeys
    cases hkeys
    exact ⟨names, hnames, hkeys'⟩

theorem map_name_of_mapM_precedenceEntry {names : List String} {keys : List Attribute}
    (h : names.mapM c.precedenceEntry = .ok keys) : keys.map Attribute.name = names := by
  have hmap : keys.map Attribute.name = names.map id :=
    map_eq_map_of_mapM_eq_ok h fun n k hk => by
      obtain ⟨a, -, rfl, rfl⟩ := declared_of_precedenceEntry hk
      rfl
  rwa [List.map_id] at hmap

/-! ### Acceptance -/

/-- **A draft that can be frozen comes from a well-formed document.** -/
theorem wellFormed_of_draft (h : c.draft = .ok d) (hnone : d.problem? = none) : c.WellFormed := by
  obtain ⟨hordered, hdistinct, keys, hkeys, -, hnodup⟩ := SchemaDraft.problem?_eq_none hnone
  have hregistrations := (draft_eq_ok_iff.mp h).1
  have hregistered : ∀ a ∈ c.attributes, ∃ r, a.registration = .ok r :=
    exists_mapM_eq_ok_iff.mp ⟨_, hregistrations⟩
  refine ⟨fun a ha => AttributeConfig.exists_registration_iff.mp (hregistered a ha), ?_, ?_,
    fun a ha => ?_⟩
  · rwa [map_name_of_draft h] at hdistinct
  · obtain ⟨names, hnames, hentries⟩ := precedence_of_draft h hkeys
    rw [map_name_of_mapM_precedenceEntry hentries] at hnodup
    exact ⟨names, hnames, hnodup, fun n hn =>
      exists_precedenceEntry_iff.mp (exists_mapM_eq_ok_iff.mp ⟨keys, hentries⟩ n hn)⟩
  · obtain ⟨r, hr⟩ := hregistered a ha
    have hmem : r ∈ d.registrations := (mem_iff_of_mapM_eq_ok hregistrations).mpr ⟨a, ha, hr⟩
    exact (AttributeConfig.orderingProblem?_of_registration hr).mp (hordered r hmem)

/-- **A well-formed document has a draft that can be frozen.** -/
theorem WellFormed.exists_draft (h : c.WellFormed) :
    ∃ d, c.draft = .ok d ∧ d.problem? = none := by
  obtain ⟨rs, hrs⟩ := exists_mapM_eq_ok_iff.mpr fun a ha =>
    AttributeConfig.exists_registration_iff.mpr (h.values a ha)
  obtain ⟨names, hnames, hnodup, hdeclared⟩ := h.precedence
  obtain ⟨keys, hkeys⟩ := exists_mapM_eq_ok_iff.mpr fun n hn =>
    exists_precedenceEntry_iff.mpr (hdeclared n hn)
  have hdraft : c.draft = .ok ⟨rs, some keys⟩ :=
    draft_eq_ok_iff.mpr ⟨hrs, .inr ⟨names, keys, hnames, hkeys, rfl⟩⟩
  refine ⟨_, hdraft, SchemaDraft.problem?_eq_none_iff.mpr ⟨fun r hr => ?_, ?_, keys, rfl,
    fun k hk => ?_, ?_⟩⟩
  · obtain ⟨a, ha, hr⟩ := (mem_iff_of_mapM_eq_ok hrs).mp hr
    exact (AttributeConfig.orderingProblem?_of_registration hr).mpr (h.ordered a ha)
  · rw [map_name_of_draft hdraft]
    exact h.distinct
  · obtain ⟨n, -, hn⟩ := (mem_iff_of_mapM_eq_ok hkeys).mp hk
    obtain ⟨a, ha, -, rfl⟩ := declared_of_precedenceEntry hn
    obtain ⟨r, hr⟩ := AttributeConfig.exists_registration_iff.mpr (h.values a ha)
    exact ⟨r, (mem_iff_of_mapM_eq_ok hrs).mpr ⟨a, ha, hr⟩, AttributeConfig.key_of_registration hr⟩
  · rwa [map_name_of_mapM_precedenceEntry hkeys]

/-- **There is a schema exactly for well-formed documents.** -/
theorem exists_build_iff_wellFormed : (∃ s, c.build = .ok s) ↔ c.WellFormed := by
  constructor
  · rintro ⟨s, h⟩
    obtain ⟨d, hdraft, hbuild⟩ := build_eq_ok_iff.mp h
    exact wellFormed_of_draft hdraft (SchemaDraft.exists_build_iff.mp ⟨s, hbuild⟩)
  · intro h
    obtain ⟨d, hdraft, hnone⟩ := h.exists_draft
    obtain ⟨s, hs⟩ := SchemaDraft.exists_build_iff.mpr hnone
    exact ⟨s, build_eq_ok_iff.mpr ⟨d, hdraft, hs⟩⟩

/-! ### Meaning -/

/-- Every declared attribute is registered, as its declaration says. -/
theorem exists_registered_of_build (h : c.build = .ok s) (ha : a ∈ c.attributes) :
    ∃ r, a.registration = .ok r ∧ r ∈ s.registrations.toList := by
  obtain ⟨d, hdraft, hbuild⟩ := build_eq_ok_iff.mp h
  have hregistrations := (draft_eq_ok_iff.mp hdraft).1
  obtain ⟨r, hr⟩ := exists_mapM_eq_ok_iff.mp ⟨_, hregistrations⟩ a ha
  have hmem : r ∈ d.registrations := (mem_iff_of_mapM_eq_ok hregistrations).mpr ⟨a, ha, hr⟩
  exact ⟨r, hr, (SchemaDraft.mem_registrations_of_build hbuild).mpr hmem⟩

theorem isMandatory_of_build (h : c.build = .ok s) (ha : a ∈ c.attributes) :
    s.isMandatory a.name = a.mandatory := by
  obtain ⟨r, hr, hmem⟩ := exists_registered_of_build h ha
  obtain ⟨rule, preference, -, -, rfl⟩ := AttributeConfig.registration_eq_ok_iff.mp hr
  have hfind : s.find? a.name = some _ := SortedBy.find?_eq_some_iff.mpr ⟨hmem, rfl⟩
  unfold Schema.isMandatory
  rw [hfind]
  rfl

theorem isMatchingValue_of_build (h : c.build = .ok s) (ha : a ∈ c.attributes)
    {candidate requested : Value} (hcandidate : candidate.type = a.type)
    (hrequested : requested.type = a.type) :
    ∃ accepted, s.isMatchingValue a.key candidate requested = .ok accepted ∧
      (accepted = true ↔ a.Accepts candidate requested) := by
  obtain ⟨r, hr, hmem⟩ := exists_registered_of_build h ha
  obtain ⟨rule, preference, hrule, -, rfl⟩ := AttributeConfig.registration_eq_ok_iff.mp hr
  have hlookup := Schema.registrationOf_eq_ok_iff.mpr ⟨hmem, rfl⟩
  refine ⟨_, ?_, AttributeConfig.accepts_iff_of_compatibilityRule hrule hcandidate hrequested⟩
  have hcheck {v : Value} (hv : v.type = a.type) :
      (a.key.check v).mapError MatchError.value = .ok () := mapError_eq_ok_iff.mpr (if_pos hv)
  exact bind_eq_ok.mpr ⟨_, hlookup, bind_eq_ok.mpr ⟨(), hcheck hcandidate,
    bind_eq_ok.mpr ⟨(), hcheck hrequested, rfl⟩⟩⟩

theorem describes_of_build (h : c.build = .ok s) : c.Describes s where
  keys := by
    obtain ⟨d, hdraft, hbuild⟩ := build_eq_ok_iff.mp h
    exact map_key_of_draft hdraft ▸ SchemaDraft.keys_perm_of_build hbuild
  mandatory _ ha := isMandatory_of_build h ha
  precedence := by
    obtain ⟨d, hdraft, hbuild⟩ := build_eq_ok_iff.mp h
    obtain ⟨names, hnames, hentries⟩ :=
      precedence_of_draft hdraft (SchemaDraft.precedence_of_build hbuild)
    exact ⟨names, hnames, (mapM_eq_ok_iff.mp hentries).imp fun _ _ => declared_of_precedenceEntry⟩
  matching _ ha _ _ := isMatchingValue_of_build h ha

/--
**Schema documents mean what they say.** There is a schema for a document exactly when the document
is well formed, and then it is the schema that the document describes: it has the declared
attributes with their types and flags, its precedence is that of the document, and a value matches
another one exactly when the rule of the document says so.
-/
theorem build_faithful (c : SchemaConfig) :
    ((∃ s, c.build = .ok s) ↔ c.WellFormed) ∧ ∀ s, c.build = .ok s → c.Describes s :=
  ⟨exists_build_iff_wellFormed, fun _ h => describes_of_build h⟩

/-- An attribute with two table keys that denote the same level. -/
def levelByKey : AttributeConfig where
  name := "level"
  type := .integer
  mandatory := true
  compatibility := .compatibleValues (.ofList [("17", [.integer 11]), ("+17", [.integer 8])])

def levelsByKey : SchemaConfig where
  precedence := some ["tool", "level"]
  attributes := [levelByKey,
    { name := "tool", type := .version, compatibility := .atLeast, preference := .highest }]

/-- What the document lists under either key is accepted. -/
theorem build_faithful_levelsByKey : levelsByKey.WellFormed ∧ ∃ s, levelsByKey.build = .ok s ∧
    s.isMandatory "level" = true ∧
    s.isMatchingValue levelByKey.key (.integer 11) (.integer 17) = .ok true ∧
    s.isMatchingValue levelByKey.key (.integer 8) (.integer 17) = .ok true := by
  obtain ⟨s, hs⟩ : ∃ s, levelsByKey.build = .ok s := ⟨_, rfl⟩
  obtain ⟨hbuild, hdescribes⟩ := build_faithful levelsByKey
  have hmem : levelByKey ∈ levelsByKey.attributes := List.mem_cons_self
  have hmandatory : s.isMandatory "level" = true := (hdescribes s hs).mandatory levelByKey hmem
  have haccepts (n : Int64) (row : String × List Toml)
      (hrow : row ∈ [("+17", [.integer 8]), ("17", [.integer 11])])
      (hkey : Decimal.parseInt64? row.1 = some 17) (hn : .integer n ∈ row.2) :
      s.isMatchingValue levelByKey.key (.integer n) (.integer 17) = .ok true := by
    obtain ⟨accepted, hmatching, haccepted⟩ :=
      (hdescribes s hs).matching levelByKey hmem (.integer n) (.integer 17) rfl rfl
    rw [haccepted.mpr (.inr ⟨row, hrow, .integer hkey, _, hn, .integer n⟩)] at hmatching
    exact hmatching
  refine ⟨hbuild.mp ⟨s, hs⟩, s, hs, hmandatory, ?_, ?_⟩
  · exact haccepts 11 ("17", [.integer 11]) (by simp) (by decide) (by simp)
  · exact haccepts 8 ("+17", [.integer 8]) (by simp) (by decide) (by simp)

end SchemaConfig

end BuildInputs

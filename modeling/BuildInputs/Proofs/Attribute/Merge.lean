import BuildInputs.Proofs.Attribute.Pairs

/-!
# Laws of merging attribute sets

Merging gives the pairs of the second set to the first one. So it is the building of a set from the
pairs of both (`merge_eq_ofPairs`), and what is known of building settles when it works and what is
found afterwards (`merge_eq_ok_iff`). The laws compare merges by these two things only: the sets
must agree on the types of shared names (`Agree`), and an entry is that of the second set or else
that of the first one.
-/

namespace BuildInputs.AttributeSet

variable {a b c s t : AttributeSet} {e f : Entry} {name : String}

/-- The sets have no name with different types. -/
def Agree (a b : AttributeSet) : Prop :=
  ∀ e ∈ a.entries, ∀ f ∈ b.entries, e.name = f.name → e.value.type = f.value.type

theorem agree_comm : a.Agree b ↔ b.Agree a :=
  ⟨fun h e he f hf hname => (h f hf e he hname.symm).symm,
    fun h e he f hf hname => (h f hf e he hname.symm).symm⟩

/-! ## What a merge returns -/

theorem merge_eq_putAll (a b : AttributeSet) : a.merge b = a.putAll b.listing := by
  unfold putAll listing
  rw [List.foldlM_map]
  rfl

/-- **Merging is building from the pairs of both sets.** -/
theorem merge_eq_ofPairs (a b : AttributeSet) : a.merge b = ofPairs (a.listing ++ b.listing) := by
  rw [ofPairs_append, ofPairs_listing]
  exact merge_eq_putAll a b

theorem consistent_append_listing_iff : Consistent (a.listing ++ b.listing) ↔ a.Agree b := by
  constructor
  · intro h e he f hf hname
    exact h.agree e.pair (List.mem_append_left _ (mem_listing.mpr ⟨e, he, rfl⟩)) f.pair
      (List.mem_append_right _ (mem_listing.mpr ⟨f, hf, rfl⟩)) hname
  · intro h
    constructor
    · intro p hp
      rcases List.mem_append.mp hp with hp | hp
      · exact (consistent_listing a).typed p hp
      · exact (consistent_listing b).typed p hp
    · intro p hp q hq hname
      rcases List.mem_append.mp hp with hp | hp <;> rcases List.mem_append.mp hq with hq | hq
      · exact (consistent_listing a).agree p hp q hq hname
      · obtain ⟨e, he, rfl⟩ := mem_listing.mp hp
        obtain ⟨f, hf, rfl⟩ := mem_listing.mp hq
        exact h e he f hf hname
      · obtain ⟨f, hf, rfl⟩ := mem_listing.mp hp
        obtain ⟨e, he, rfl⟩ := mem_listing.mp hq
        exact (h e he f hf hname.symm).symm
      · exact (consistent_listing b).agree p hp q hq hname

theorem holds_append_listing_iff : s.Holds (a.listing ++ b.listing) ↔
    ∀ name, s.entry? name = (b.entry? name).or (a.entry? name) := by
  refine forall_congr' fun name => ?_
  rw [lastGiven?_append, ← holds_listing b, ← holds_listing a, ← Option.map_or]
  exact (Option.map_injective fun _ _ => Entry.pair_inj).eq_iff

/-- **A merge of sets that agree finds the entry of the second set, else that of the first.** -/
theorem merge_eq_ok_iff : a.merge b = .ok s ↔
    a.Agree b ∧ ∀ name, s.entry? name = (b.entry? name).or (a.entry? name) := by
  rw [merge_eq_ofPairs, ofPairs_eq_ok_iff, consistent_append_listing_iff, holds_append_listing_iff]

theorem exists_merge_iff : (∃ s, a.merge b = .ok s) ↔ a.Agree b := by
  rw [merge_eq_ofPairs, exists_ofPairs_iff, consistent_append_listing_iff]

/-- A merge holds the entries of the second set, and those of the first one under other names. -/
theorem mem_of_merge (h : a.merge b = .ok s) :
    e ∈ s.entries ↔ e ∈ b.entries ∨ (e ∈ a.entries ∧ ∀ f ∈ b.entries, f.name ≠ e.name) := by
  have hself (set : AttributeSet) : e ∈ set.entries ↔ set.entry? e.name = some e := by
    simp [entry?_eq_some_iff]
  have hfree : b.entry? e.name = none ↔ ∀ f ∈ b.entries, f.name ≠ e.name :=
    SortedBy.find?_eq_none_iff
  rw [hself s, (merge_eq_ok_iff.mp h).2, Option.or_eq_some_iff, hself b, hself a, ← hfree,
    and_comm]

/-! ## Units and repetition -/

theorem agree_empty (a : AttributeSet) : a.Agree .empty := fun _ _ _ hf => by cases hf

theorem agree_self (a : AttributeSet) : a.Agree a := by
  intro e he f hf hname
  rw [SortedBy.eq_of_key_eq he hf hname]

theorem empty_merge (a : AttributeSet) : merge .empty a = .ok a :=
  merge_eq_ok_iff.mpr ⟨agree_comm.mp (agree_empty a), fun name => by simp [entry?_empty]⟩

theorem merge_empty (a : AttributeSet) : a.merge .empty = .ok a :=
  merge_eq_ok_iff.mpr ⟨agree_empty a, fun name => by simp [entry?_empty]⟩

theorem merge_self (a : AttributeSet) : a.merge a = .ok a :=
  merge_eq_ok_iff.mpr ⟨agree_self a, fun name => by simp⟩

/-! ## Associativity -/

/-- **A merge agrees with what both of its parts agree with.** -/
theorem agree_merge_left (h : a.merge b = .ok s) : s.Agree c ↔ a.Agree c ∧ b.Agree c := by
  have hagree : a.Agree b := (merge_eq_ok_iff.mp h).1
  constructor
  · intro hs
    refine ⟨fun e he f hf hname => ?_, fun e he f hf hname => ?_⟩
    · -- an entry of the first set may be replaced, but by one of its type
      by_cases hb : ∃ e' ∈ b.entries, e'.name = e.name
      · obtain ⟨e', he', hname'⟩ := hb
        rw [hagree e he e' he' hname'.symm]
        exact hs e' ((mem_of_merge h).mpr (Or.inl he')) f hf (hname'.trans hname)
      · have hfree : ∀ e' ∈ b.entries, e'.name ≠ e.name := by simpa using hb
        exact hs e ((mem_of_merge h).mpr (Or.inr ⟨he, hfree⟩)) f hf hname
    · exact hs e ((mem_of_merge h).mpr (Or.inl he)) f hf hname
  · rintro ⟨ha, hb⟩ e he f hf hname
    rcases (mem_of_merge h).mp he with he | ⟨he, -⟩
    · exact hb e he f hf hname
    · exact ha e he f hf hname

theorem agree_merge_right (h : b.merge c = .ok s) : a.Agree s ↔ a.Agree b ∧ a.Agree c := by
  rw [agree_comm, agree_merge_left h, agree_comm, @agree_comm c]

theorem merge_merge_left_iff : (a.merge b >>= fun ab => ab.merge c) = .ok s ↔
    (a.Agree b ∧ a.Agree c ∧ b.Agree c) ∧
      ∀ name, s.entry? name = ((c.entry? name).or (b.entry? name)).or (a.entry? name) := by
  rw [bind_eq_ok]
  constructor
  · rintro ⟨ab, hab, hs⟩
    obtain ⟨hagree, hentry⟩ := merge_eq_ok_iff.mp hab
    obtain ⟨hagree', hentry'⟩ := merge_eq_ok_iff.mp hs
    refine ⟨⟨hagree, (agree_merge_left hab).mp hagree'⟩, fun name => ?_⟩
    rw [hentry', hentry, Option.or_assoc]
  · rintro ⟨⟨hagree, hagree'⟩, hentry⟩
    obtain ⟨ab, hab⟩ := exists_merge_iff.mpr hagree
    refine ⟨ab, hab, merge_eq_ok_iff.mpr ⟨(agree_merge_left hab).mpr hagree', fun name => ?_⟩⟩
    rw [hentry, (merge_eq_ok_iff.mp hab).2, Option.or_assoc]

theorem merge_merge_right_iff : (b.merge c >>= fun bc => a.merge bc) = .ok s ↔
    (a.Agree b ∧ a.Agree c ∧ b.Agree c) ∧
      ∀ name, s.entry? name = ((c.entry? name).or (b.entry? name)).or (a.entry? name) := by
  rw [bind_eq_ok]
  constructor
  · rintro ⟨bc, hbc, hs⟩
    obtain ⟨hagree, hentry⟩ := merge_eq_ok_iff.mp hbc
    obtain ⟨hagree', hentry'⟩ := merge_eq_ok_iff.mp hs
    obtain ⟨hab, hac⟩ := (agree_merge_right hbc).mp hagree'
    refine ⟨⟨hab, hac, hagree⟩, fun name => ?_⟩
    rw [hentry', hentry]
  · rintro ⟨⟨hab, hac, hagree⟩, hentry⟩
    obtain ⟨bc, hbc⟩ := exists_merge_iff.mpr hagree
    refine ⟨bc, hbc, merge_eq_ok_iff.mpr ⟨(agree_merge_right hbc).mpr ⟨hab, hac⟩, fun name => ?_⟩⟩
    rw [hentry, (merge_eq_ok_iff.mp hbc).2]

/-- **Merging is associative**, failures included. -/
theorem merge_assoc : (a.merge b >>= fun ab => ab.merge c) = .ok s ↔
    (b.merge c >>= fun bc => a.merge bc) = .ok s := by
  rw [merge_merge_left_iff, merge_merge_right_iff]

/-! ## Exchanging the sets -/

theorem merge_fails_comm :
    (∃ err, a.merge b = .error err) ↔ ∃ err, b.merge a = .error err := by
  rw [exists_error_iff, exists_error_iff, exists_merge_iff, exists_merge_iff, agree_comm]

/-- **Merging commutes for sets with the same values under shared names**, and only then. -/
theorem merge_comm_iff (hs : a.merge b = .ok s) (ht : b.merge a = .ok t) :
    s = t ↔ ∀ e ∈ a.entries, ∀ f ∈ b.entries, e.name = f.name → e.value = f.value := by
  have hs' := (merge_eq_ok_iff.mp hs).2
  have ht' := (merge_eq_ok_iff.mp ht).2
  constructor
  · rintro rfl e he f hf hname
    have ha : a.entry? f.name = some e := entry?_eq_some_iff.mpr ⟨he, hname⟩
    have hb : b.entry? f.name = some f := entry?_eq_some_iff.mpr ⟨hf, rfl⟩
    have hboth := (hs' f.name).symm.trans (ht' f.name)
    rw [ha, hb] at hboth
    cases hboth
    rfl
  · intro hvalues
    refine ext_entry? fun name => ?_
    rw [hs', ht']
    cases ha : a.entry? name with
    | none => simp
    | some e =>
      cases hb : b.entry? name with
      | none => simp
      | some f =>
        obtain ⟨he, hename⟩ := entry?_eq_some_iff.mp ha
        obtain ⟨hf, hfname⟩ := entry?_eq_some_iff.mp hb
        have hname : e.name = f.name := hename.trans hfname.symm
        have hvalue : e.value = f.value := hvalues e he f hf hname
        cases e
        cases f
        cases hname
        cases hvalue
        rfl

/--
**Laws of merging.** Two sets can be merged when no name is in both with different types. The merge
then holds the entries of the second set and those of the first one under other names. The empty set
is a unit on both sides and merging a set with itself changes nothing. Merging three sets from the
left or from the right gives the same set, or fails both ways. Merging fails in one order when it
does in the other, and otherwise the order does not matter exactly when the sets have the same
values under shared names.
-/
theorem merge_laws (a b c : AttributeSet) :
    ((∃ s, a.merge b = .ok s) ↔ a.Agree b) ∧
      (∀ s, a.merge b = .ok s → ∀ e, e ∈ s.entries ↔
        e ∈ b.entries ∨ (e ∈ a.entries ∧ ∀ f ∈ b.entries, f.name ≠ e.name)) ∧
      (merge .empty a = .ok a ∧ a.merge .empty = .ok a ∧ a.merge a = .ok a) ∧
      (∀ s, (a.merge b >>= fun ab => ab.merge c) = .ok s ↔
        (b.merge c >>= fun bc => a.merge bc) = .ok s) ∧
      ((∃ err, a.merge b = .error err) ↔ ∃ err, b.merge a = .error err) ∧
      ∀ s t, a.merge b = .ok s → b.merge a = .ok t →
        (s = t ↔ ∀ e ∈ a.entries, ∀ f ∈ b.entries, e.name = f.name → e.value = f.value) :=
  ⟨exists_merge_iff, fun _ h _ => mem_of_merge h, ⟨empty_merge a, merge_empty a, merge_self a⟩,
    fun _ => merge_assoc, merge_fails_comm, fun _ _ => merge_comm_iff⟩

/-- The attributes of an operating system with this name. -/
def systemOf (os : String) : AttributeSet := .singleton ⟨"os", .string os⟩

/-- Systems with different names can be merged, with different results. -/
theorem merge_laws_systems :
    (systemOf "linux").merge (systemOf "macos") = .ok (systemOf "macos") ∧
      (systemOf "macos").merge (systemOf "linux") = .ok (systemOf "linux") ∧
      (systemOf "macos" = systemOf "linux" ↔ ∀ e ∈ (systemOf "linux").entries,
        ∀ f ∈ (systemOf "macos").entries, e.name = f.name → e.value = f.value) := by
  have hmacos : (systemOf "linux").merge (systemOf "macos") = .ok (systemOf "macos") := rfl
  have hlinux : (systemOf "macos").merge (systemOf "linux") = .ok (systemOf "linux") := rfl
  obtain ⟨-, -, -, -, -, hcomm⟩ := merge_laws (systemOf "linux") (systemOf "macos") .empty
  exact ⟨hmacos, hlinux, hcomm _ _ hmacos hlinux⟩

end BuildInputs.AttributeSet

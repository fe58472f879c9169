import Mathlib.Data.List.Induction
import BuildInputs.Proofs.Attribute.Set

/-!
# Sets of given pairs

A set is built from pairs of an attribute and a value, taken one after the other. Whether this works
and what comes out can be told from the pairs alone:

* `ofPairs_eq_ok_iff` — pairs that are consistent make a set, which holds for each name what was
  given last
* `ofPairs_eq_error_iff` — other pairs fail with the error of the first pair that offends

Both follow from what one more pair does at the end: consistent pairs stay so, or the new pair
offends (`consistent_or_offends`). A set is itself made of its pairs (`ofPairs_listing`), which lets
further pairs be given to it.
-/

namespace BuildInputs

/-- An element that alone passes a test is the one that is found. -/
theorem find?_eq_some_iff_of_unique {α : Type} {test : α → Bool} {xs : List α} {x : α}
    (hunique : ∀ a ∈ xs, ∀ b ∈ xs, test a = true → test b = true → a = b) :
    xs.find? test = some x ↔ x ∈ xs ∧ test x = true := by
  constructor
  · intro h
    exact ⟨List.mem_of_find?_eq_some h, List.find?_some h⟩
  · rintro ⟨hx, htest⟩
    obtain ⟨y, hy⟩ := Option.isSome_iff_exists.mp (List.find?_isSome.mpr ⟨x, hx, htest⟩)
    rw [hy, hunique y (List.mem_of_find?_eq_some hy) x hx (List.find?_some hy) htest]

/-- An entry as a pair. -/
def Entry.pair (e : Entry) : Attribute × Value := (e.key, e.value)

theorem Entry.pair_inj {e e' : Entry} (h : e.pair = e'.pair) : e = e' := by
  obtain ⟨hkey, hvalue⟩ := Prod.mk.inj h
  have hname : e.name = e'.name := congrArg Attribute.name hkey
  cases e
  cases e'
  cases hname
  cases hvalue
  rfl

namespace AttributeSet

/-- The entries as pairs, in increasing order of names. -/
def listing (s : AttributeSet) : List (Attribute × Value) := s.entries.map Entry.pair

/-- The last of the pairs with this name. -/
def lastGiven? (pairs : List (Attribute × Value)) (name : String) : Option (Attribute × Value) :=
  pairs.reverse.find? fun p => p.1.name = name

/-- Pairs that can be given together: values have the type of their attribute, and a name has one
type. -/
structure Consistent (pairs : List (Attribute × Value)) : Prop where
  typed : ∀ p ∈ pairs, p.2.type = p.1.type
  agree : ∀ p ∈ pairs, ∀ q ∈ pairs, p.1.name = q.1.name → p.1.type = q.1.type

/-- What is wrong with a pair that is given after others. -/
inductive Offends (before : List (Attribute × Value)) : Attribute × Value → AttributeError → Prop
  | typeMismatch {a : Attribute} {v : Value} (hv : v.type ≠ a.type) :
    Offends before (a, v) (.typeMismatch a v)
  | conflictingType {a b : Attribute} {v w : Value} (hv : v.type = a.type)
    (hmem : (b, w) ∈ before) (hname : b.name = a.name) (hne : b.type ≠ a.type) :
    Offends before (a, v) (.conflictingType a.name b.type a.type)

variable {s t : AttributeSet} {pairs before after : List (Attribute × Value)}
  {p q : Attribute × Value} {e : Entry} {name : String} {err : AttributeError}

/-! ## What was given last -/

theorem lastGiven?_append (before after : List (Attribute × Value)) (name : String) :
    lastGiven? (before ++ after) name = (lastGiven? after name).or (lastGiven? before name) := by
  simp [lastGiven?]

theorem lastGiven?_append_singleton (pairs : List (Attribute × Value)) (p : Attribute × Value)
    (name : String) : lastGiven? (pairs ++ [p]) name =
      if p.1.name = name then some p else lastGiven? pairs name := by
  by_cases hname : p.1.name = name <;> simp [lastGiven?, hname]

theorem mem_of_lastGiven? (h : lastGiven? pairs name = some p) : p ∈ pairs ∧ p.1.name = name := by
  refine ⟨List.mem_reverse.mp (List.mem_of_find?_eq_some h), ?_⟩
  simpa using List.find?_some h

theorem exists_lastGiven? (h : p ∈ pairs) : ∃ q, lastGiven? pairs p.1.name = some q := by
  apply Option.isSome_iff_exists.mp
  unfold lastGiven?
  rw [List.find?_isSome]
  exact ⟨p, List.mem_reverse.mpr h, by simp⟩

/-- Where names do not recur, each pair is the last one of its name. -/
theorem lastGiven?_eq_some_iff
    (hunique : ∀ p ∈ pairs, ∀ q ∈ pairs, p.1.name = q.1.name → p = q) :
    lastGiven? pairs name = some p ↔ p ∈ pairs ∧ p.1.name = name := by
  unfold lastGiven?
  rw [find?_eq_some_iff_of_unique, List.mem_reverse, decide_eq_true_iff]
  intro p hp q hq hpname hqname
  exact hunique p (List.mem_reverse.mp hp) q (List.mem_reverse.mp hq)
    ((of_decide_eq_true hpname).trans (of_decide_eq_true hqname).symm)

/-! ## Consistent pairs -/

theorem Consistent.of_append (h : Consistent (before ++ after)) : Consistent before where
  typed p hp := h.typed p (List.mem_append_left _ hp)
  agree p hp q hq := h.agree p (List.mem_append_left _ hp) q (List.mem_append_left _ hq)

/-- **One more pair keeps pairs consistent unless it offends them.** -/
theorem Consistent.append_singleton (h : Consistent pairs) (hp : ∀ err, ¬ Offends pairs p err) :
    Consistent (pairs ++ [p]) := by
  have htype : p.2.type = p.1.type := by
    by_contra hne
    exact hp _ (.typeMismatch hne)
  have hagree : ∀ q ∈ pairs, q.1.name = p.1.name → q.1.type = p.1.type := by
    intro q hq hname
    by_contra hne
    exact hp _ (.conflictingType htype hq hname hne)
  constructor
  · intro q hq
    rcases List.mem_append.mp hq with hq | hq
    · exact h.typed q hq
    · rwa [List.mem_singleton.mp hq]
  · intro q hq r hr hname
    rcases List.mem_append.mp hq with hq | hq <;> rcases List.mem_append.mp hr with hr | hr
    · exact h.agree q hq r hr hname
    · rw [List.mem_singleton.mp hr] at hname ⊢
      exact hagree q hq hname
    · rw [List.mem_singleton.mp hq] at hname ⊢
      exact (hagree r hr hname.symm).symm
    · rw [List.mem_singleton.mp hq, List.mem_singleton.mp hr]

/-- **Pairs are consistent, or one of them is the first to offend.** -/
theorem consistent_or_offends (pairs : List (Attribute × Value)) : Consistent pairs ∨
    ∃ before p after err, pairs = before ++ p :: after ∧ Consistent before ∧
      Offends before p err := by
  induction pairs using List.reverseRecOn with
  | nil => exact Or.inl ⟨by simp, by simp⟩
  | append_singleton pairs p ih =>
    rcases ih with h | ⟨before, q, after, err, rfl, hbefore, hoffends⟩
    · by_cases hp : ∃ err, Offends pairs p err
      · obtain ⟨err, hoffends⟩ := hp
        exact Or.inr ⟨pairs, p, [], err, rfl, h, hoffends⟩
      · exact Or.inl (h.append_singleton (not_exists.mp hp))
    · exact Or.inr ⟨before, q, after ++ [p], err, by simp, hbefore, hoffends⟩

/-! ## Building a set -/

/-- Give further pairs to a set. -/
def putAll (s : AttributeSet) (pairs : List (Attribute × Value)) :
    Except AttributeError AttributeSet :=
  pairs.foldlM (fun s p => s.put p.1 p.2) s

theorem putAll_cons (s : AttributeSet) (p : Attribute × Value) (pairs : List (Attribute × Value)) :
    s.putAll (p :: pairs) = s.put p.1 p.2 >>= fun t => t.putAll pairs :=
  List.foldlM_cons

theorem putAll_singleton (s : AttributeSet) (p : Attribute × Value) :
    s.putAll [p] = s.put p.1 p.2 := by
  rw [putAll_cons]
  cases s.put p.1 p.2 <;> rfl

theorem ofPairs_append (before after : List (Attribute × Value)) :
    ofPairs (before ++ after) = ofPairs before >>= fun s => s.putAll after :=
  List.foldlM_append

/-- The set holds what the pairs gave last. -/
def Holds (s : AttributeSet) (pairs : List (Attribute × Value)) : Prop :=
  ∀ name, (s.entry? name).map Entry.pair = lastGiven? pairs name

/-- There is one set at most that holds what the pairs gave. -/
theorem Holds.unique (hs : s.Holds pairs) (ht : t.Holds pairs) : s = t :=
  ext_entry? fun name =>
    Option.map_injective (fun _ _ => Entry.pair_inj) ((hs name).trans (ht name).symm)

theorem Holds.exists_mem (h : s.Holds pairs) (he : s.entry? name = some e) :
    e.pair ∈ pairs ∧ e.name = name := by
  have hlast := h name
  rw [he] at hlast
  exact mem_of_lastGiven? hlast.symm

/-- **Putting in a pair is giving it after the others.** -/
theorem Holds.insert (h : s.Holds pairs) (hp : p.2.type = p.1.type) :
    Holds (s.insert ⟨p.1.name, p.2⟩) (pairs ++ [p]) := by
  intro name
  rw [entry?_insert, lastGiven?_append_singleton]
  by_cases hname : p.1.name = name
  · rw [if_pos hname, if_pos hname]
    simp [Entry.pair, Entry.key, hp]
  · rw [if_neg hname, if_neg hname]
    exact h name

theorem exists_ofPairs (h : Consistent pairs) : ∃ s, ofPairs pairs = .ok s ∧ s.Holds pairs := by
  induction pairs using List.reverseRecOn with
  | nil => exact ⟨.empty, rfl, fun _ => rfl⟩
  | append_singleton pairs p ih =>
    obtain ⟨s, hs, hholds⟩ := ih h.of_append
    have hp : p.2.type = p.1.type := h.typed p (by simp)
    have hadmits : s.Admits p.1 := by
      intro e he
      obtain ⟨hmem, hname⟩ := hholds.exists_mem he
      exact h.agree e.pair (List.mem_append_left _ hmem) p (by simp) hname
    refine ⟨s.insert ⟨p.1.name, p.2⟩, ?_, hholds.insert hp⟩
    rw [ofPairs_append, hs]
    show s.putAll [p] = _
    rw [putAll_singleton]
    exact put_eq_ok_iff.mpr ⟨hp, hadmits, rfl⟩

/-- **Building fails at the first pair that offends.** -/
theorem ofPairs_eq_error (hbefore : Consistent before) (hp : Offends before p err) :
    ofPairs (before ++ p :: after) = .error err := by
  obtain ⟨s, hs, hholds⟩ := exists_ofPairs hbefore
  have hput : s.put p.1 p.2 = .error err := by
    cases hp with
    | typeMismatch hv => exact put_of_type_ne hv
    | @conflictingType a b v w hv hmem hname hne =>
      -- the name is in the set with the type that all pairs before give it
      obtain ⟨q, hq⟩ := exists_lastGiven? hmem
      obtain ⟨hqmem, hqname⟩ := mem_of_lastGiven? hq
      obtain ⟨e, he, rfl⟩ := Option.map_eq_some_iff.mp ((hholds b.name).trans hq)
      have htype : e.value.type = b.type := hbefore.agree _ hqmem _ hmem hqname
      exact put_eq_error_iff.mpr (Or.inr ⟨hv, e, hname ▸ he, htype ▸ hne, by rw [htype]⟩)
  rw [ofPairs_append, hs]
  show s.putAll (p :: after) = _
  rw [putAll_cons, hput]
  rfl

/-- **Consistent pairs make the set of what was given last.** -/
theorem ofPairs_eq_ok_iff : ofPairs pairs = .ok s ↔ Consistent pairs ∧ s.Holds pairs := by
  constructor
  · intro hs
    rcases consistent_or_offends pairs with h | ⟨before, p, after, err, rfl, hbefore, hoffends⟩
    · obtain ⟨t, ht, hholds⟩ := exists_ofPairs h
      rw [hs] at ht
      cases ht
      exact ⟨h, hholds⟩
    · rw [ofPairs_eq_error hbefore hoffends] at hs
      cases hs
  · rintro ⟨h, hholds⟩
    obtain ⟨t, ht, hholds'⟩ := exists_ofPairs h
    rw [ht, hholds'.unique hholds]

theorem exists_ofPairs_iff : (∃ s, ofPairs pairs = .ok s) ↔ Consistent pairs := by
  constructor
  · rintro ⟨s, hs⟩
    exact (ofPairs_eq_ok_iff.mp hs).1
  · intro h
    obtain ⟨s, hs, -⟩ := exists_ofPairs h
    exact ⟨s, hs⟩

/-- **The error is that of the first pair that offends.** -/
theorem ofPairs_eq_error_iff : ofPairs pairs = .error err ↔
    ∃ before p after, pairs = before ++ p :: after ∧ Consistent before ∧ Offends before p err := by
  constructor
  · intro herr
    rcases consistent_or_offends pairs with h | ⟨before, p, after, err', rfl, hbefore, hoffends⟩
    · obtain ⟨s, hs, -⟩ := exists_ofPairs h
      rw [hs] at herr
      cases herr
    · rw [ofPairs_eq_error hbefore hoffends] at herr
      cases herr
      exact ⟨before, p, after, rfl, hbefore, hoffends⟩
  · rintro ⟨before, p, after, rfl, hbefore, hoffends⟩
    exact ofPairs_eq_error hbefore hoffends

/-! ## The pairs of a set -/

theorem mem_listing : p ∈ s.listing ↔ ∃ e ∈ s.entries, e.pair = p := List.mem_map

theorem eq_of_mem_listing (hp : p ∈ s.listing) (hq : q ∈ s.listing) (h : p.1.name = q.1.name) :
    p = q := by
  obtain ⟨e, he, rfl⟩ := mem_listing.mp hp
  obtain ⟨f, hf, rfl⟩ := mem_listing.mp hq
  exact congrArg Entry.pair (SortedBy.eq_of_key_eq he hf h)

theorem consistent_listing (s : AttributeSet) : Consistent s.listing where
  typed p hp := by
    obtain ⟨e, -, rfl⟩ := mem_listing.mp hp
    rfl
  agree p hp q hq hname := by rw [eq_of_mem_listing hp hq hname]

/-- A set holds what its pairs give. -/
theorem holds_listing (s : AttributeSet) : s.Holds s.listing := by
  intro name
  ext p
  rw [lastGiven?_eq_some_iff fun _ hp _ hq => eq_of_mem_listing hp hq, Option.map_eq_some_iff,
    mem_listing]
  constructor
  · rintro ⟨e, he, rfl⟩
    obtain ⟨hmem, hname⟩ := entry?_eq_some_iff.mp he
    exact ⟨⟨e, hmem, rfl⟩, hname⟩
  · rintro ⟨⟨e, hmem, rfl⟩, hname⟩
    exact ⟨e, entry?_eq_some_iff.mpr ⟨hmem, hname⟩, rfl⟩

/-- **A set is made of its pairs.** -/
theorem ofPairs_listing (s : AttributeSet) : ofPairs s.listing = .ok s :=
  ofPairs_eq_ok_iff.mpr ⟨consistent_listing s, holds_listing s⟩

end AttributeSet

end BuildInputs

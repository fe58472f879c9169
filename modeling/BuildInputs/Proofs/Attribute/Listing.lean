import BuildInputs.Proofs.Attribute.Merge
import BuildInputs.Proofs.Sorted.Search
import BuildInputs.Proofs.Text.ByteOrder

/-!
# Attribute sets as arrays

In memory a set is an array of pairs, with no promise on their order, names or types, and everything
is done by halving: a value replaces that of the pair which a search finds, or goes into the place
which it finds. Halving is good for nothing unless the array is in order, so each operation has to
leave it so. It does, since on the array of a set it makes the array of the set that the operation
on sets makes:

1. The array of a set is in order of names, so searching it by halving finds the entry that the set
   has under a name (`entry?_listing`).
2. Giving a value does to the array what it does to the set (`put_listing`), and so do building and
   merging, which give one value after the other (`ofPairs_eq`, `merge_listing`).
3. What the operations make is therefore the arrays of sets, all of them and no others
   (`reachable_iff`).
-/

namespace BuildInputs

open Digest

/-- A set in memory. -/
abbrev Listing := List (Attribute × Value)

namespace Listing

def nameOf (p : Attribute × Value) : String := p.1.name

/-- The pair with this name, whatever its type. -/
def entry? (xs : Listing) (name : String) : Option (Attribute × Value) :=
  SortedBy.lookup nameOf xs name

/-- The value of exactly this attribute. -/
def get? (xs : Listing) (a : Attribute) : Option Value :=
  ((xs.entry? a.name).filter fun p => p.1 = a).map Prod.snd

def hasName (xs : Listing) (name : String) : Bool := (xs.entry? name).isSome

/-- Give `a` the value `v`, in the pair with its name or else in a new one. -/
def put (xs : Listing) (a : Attribute) (v : Value) : Except AttributeError Listing := do
  a.check v
  match SortedBy.search nameOf xs a.name with
  | .occupied i =>
    if xs[i].1.type = a.type then return xs.set i (xs[i].1, v)
    else throw (.conflictingType a.name xs[i].1.type a.type)
  | .free i => return xs.insertIdx i (a, v)

/-- Give the values of further pairs, one after the other. -/
def putAll (xs : Listing) (pairs : List (Attribute × Value)) : Except AttributeError Listing :=
  pairs.foldlM (fun xs p => put xs p.1 p.2) xs

def ofPairs (pairs : List (Attribute × Value)) : Except AttributeError Listing := putAll [] pairs

def merge (xs ys : Listing) : Except AttributeError Listing := xs.putAll ys

/-- The arrays that operations make of nothing. -/
inductive Reachable : Listing → Prop
  | empty : Reachable []
  | put {xs ys : Listing} {a : Attribute} {v : Value} (hx : Reachable xs)
    (h : xs.put a v = .ok ys) : Reachable ys
  | ofPairs {xs : Listing} {pairs : List (Attribute × Value)} (h : ofPairs pairs = .ok xs) :
    Reachable xs
  | merge {xs ys zs : Listing} (hx : Reachable xs) (hy : Reachable ys)
    (h : xs.merge ys = .ok zs) : Reachable zs

/-- In byte order of names, with values of their attributes' types, so that halving finds what going
through the pairs finds. -/
structure Canonical (xs : Listing) : Prop where
  increasing : xs.Pairwise fun p q => utf8 p.1.name < utf8 q.1.name
  typed : ∀ p ∈ xs, p.2.type = p.1.type
  entry?_eq : ∀ name, xs.entry? name = xs.find? fun p => p.1.name = name
  get?_eq : ∀ a, xs.get? a = (xs.find? fun p => p.1 = a).map Prod.snd
  hasName_eq : ∀ name, xs.hasName name = xs.any fun p => p.1.name = name

/-- The array of a set, which answers as the set does. -/
structure Represents (xs : Listing) (s : AttributeSet) : Prop where
  listing_eq : s.listing = xs
  entry?_eq : ∀ name, xs.entry? name = (s.entry? name).map Entry.pair
  get?_eq : ∀ a, xs.get? a = s.get? a
  hasName_eq : ∀ name, xs.hasName name = s.hasName name

variable {s t : AttributeSet} {xs ys pairs : Listing} {p q : Attribute × Value} {e : Entry}
  {a : Attribute} {v : Value} {name : String}

/-! ## Looking up -/

theorem sorted_listing (s : AttributeSet) :
    s.listing.Pairwise fun p q => compare (nameOf p) (nameOf q) = .lt :=
  List.pairwise_map.mpr s.sorted

/-- **Halving finds what going through the pairs finds.** -/
theorem entry?_eq_find? (s : AttributeSet) (name : String) :
    entry? s.listing name = s.listing.find? fun p => p.1.name = name := by
  have htest (p : Attribute × Value) :
      (compare (nameOf p) name).isEq = decide (p.1.name = name) := by
    rw [Bool.eq_iff_iff]
    simp [nameOf]
  unfold entry?
  rw [SortedBy.lookup_eq_find? (sorted_listing s)]
  simp only [htest]

theorem entry?_listing (s : AttributeSet) (name : String) :
    entry? s.listing name = (s.entry? name).map Entry.pair := by
  unfold entry?
  rw [SortedBy.lookup_eq_find? (sorted_listing s)]
  unfold AttributeSet.listing
  rw [List.find?_map]
  rfl

theorem get?_listing (s : AttributeSet) (a : Attribute) : get? s.listing a = s.get? a := by
  unfold get? AttributeSet.get?
  rw [entry?_listing]
  cases s.entry? a.name with
  | none => rfl
  | some e => by_cases hkey : e.key = a <;> simp [Option.filter_some, Entry.pair, hkey]

theorem represents_listing (s : AttributeSet) : Represents s.listing s where
  listing_eq := rfl
  entry?_eq := entry?_listing s
  get?_eq := get?_listing s
  hasName_eq name := by
    unfold hasName AttributeSet.hasName
    rw [entry?_listing, Option.isSome_map]

theorem canonical_listing (s : AttributeSet) : Canonical s.listing where
  increasing := (sorted_listing s).imp utf8_lt_utf8
  typed := (AttributeSet.consistent_listing s).typed
  entry?_eq := entry?_eq_find? s
  get?_eq a := by
    have hunique {p q : Attribute × Value} (hp : p ∈ s.listing) (hq : q ∈ s.listing)
        (h : p.1.name = q.1.name) : p = q := AttributeSet.eq_of_mem_listing hp hq h
    unfold get?
    rw [entry?_eq_find?]
    congr 1
    ext p
    rw [Option.filter_eq_some_iff, find?_eq_some_iff_of_unique, find?_eq_some_iff_of_unique]
    · simp only [decide_eq_true_eq, and_assoc]
      refine and_congr_right fun _ => ⟨And.right, ?_⟩
      rintro rfl
      exact ⟨rfl, rfl⟩
    · intro p hp q hq hpkey hqkey
      simp only [decide_eq_true_eq] at hpkey hqkey
      exact hunique hp hq (by rw [hpkey, hqkey])
    · intro p hp q hq hpname hqname
      simp only [decide_eq_true_eq] at hpname hqname
      exact hunique hp hq (by rw [hpname, hqname])
  hasName_eq name := by
    unfold hasName
    rw [entry?_eq_find?, Bool.eq_iff_iff, List.find?_isSome, List.any_eq_true]

/-! ## Giving a value -/

theorem insertInto_listing (s : AttributeSet) (e : Entry) :
    SortedBy.insertInto nameOf e.pair s.listing = AttributeSet.listing (s.insert e) :=
  SortedBy.insertInto_map s.entries

theorem pair_eq (hv : v.type = a.type) : Entry.pair ⟨a.name, v⟩ = (a, v) := by
  simp [Entry.pair, Entry.key, hv]

theorem put_of_occupied {i : Fin xs.length} (hv : v.type = a.type)
    (hs : SortedBy.search nameOf xs a.name = .occupied i) : xs.put a v =
      if xs[i].1.type = a.type then .ok (xs.set i (xs[i].1, v))
      else .error (.conflictingType a.name xs[i].1.type a.type) := by
  unfold put Attribute.check
  rw [if_pos hv, hs]
  rfl

theorem put_of_free {i : Nat} (hv : v.type = a.type)
    (hs : SortedBy.search nameOf xs a.name = .free i) :
    xs.put a v = .ok (xs.insertIdx i (a, v)) := by
  unfold put Attribute.check
  rw [if_pos hv, hs]
  rfl

/-- To replace the value that a search finds is to insert it. -/
theorem set_listing {i : Fin s.listing.length} (hv : v.type = a.type)
    (hs : SortedBy.search nameOf s.listing a.name = .occupied i) :
    s.listing.set i (a, v) = AttributeSet.listing (s.insert ⟨a.name, v⟩) := by
  have hname : nameOf s.listing[i] = nameOf (a, v) := SortedBy.key_of_search_occupied hs
  rw [SortedBy.set_eq_insertInto (sorted_listing s) i.isLt hname, ← pair_eq hv,
    insertInto_listing]

/-- To put a value into the place that a search finds is to insert it. -/
theorem insertIdx_listing {i : Nat} (hv : v.type = a.type)
    (hs : SortedBy.search nameOf s.listing a.name = .free i) :
    s.listing.insertIdx i (a, v) = AttributeSet.listing (s.insert ⟨a.name, v⟩) := by
  have hplace : SortedBy.Separates nameOf s.listing (nameOf (a, v)) i :=
    SortedBy.separates_of_search_free (sorted_listing s) hs
  rw [SortedBy.insertIdx_eq_insertInto hplace, ← pair_eq hv, insertInto_listing]

/-- **Giving a value does to the array of a set what it does to the set.** -/
theorem put_listing (s : AttributeSet) (a : Attribute) (v : Value) :
    put s.listing a v = (s.put a v).map AttributeSet.listing := by
  by_cases hv : v.type = a.type
  · have hlookup := entry?_listing s a.name
    unfold entry? SortedBy.lookup at hlookup
    rw [AttributeSet.put_of_type_eq hv]
    cases hs : SortedBy.search nameOf s.listing a.name with
    | occupied i =>
      rw [hs] at hlookup
      obtain ⟨e, he, hpair⟩ := Option.map_eq_some_iff.mp hlookup.symm
      have hkey : s.listing[i].1 = e.key := congrArg Prod.fst hpair.symm
      have htypeOf : e.key.type = e.value.type := rfl
      rw [put_of_occupied hv hs, he, hkey, htypeOf]
      by_cases htype : e.value.type = a.type
      · have hsame : e.key = a := by
          have hname : e.name = a.name := (AttributeSet.entry?_eq_some_iff.mp he).2
          simp [Entry.key, hname, htype]
        simp only [htype, if_true, hsame, set_listing hv hs]
        rfl
      · simp only [htype, if_false]
        rfl
    | free i =>
      rw [hs] at hlookup
      have hnone : s.entry? a.name = none := Option.map_eq_none_iff.mp hlookup.symm
      rw [put_of_free hv hs, hnone, insertIdx_listing hv hs]
      rfl
  · rw [AttributeSet.put_of_type_ne hv]
    unfold put Attribute.check
    rw [if_neg hv]
    rfl

/-! ## Giving several values -/

theorem putAll_listing (s : AttributeSet) (pairs : List (Attribute × Value)) :
    putAll s.listing pairs = (s.putAll pairs).map AttributeSet.listing := by
  induction pairs generalizing s with
  | nil => rfl
  | cons p pairs ih =>
    have hcons (xs : Listing) : xs.putAll (p :: pairs) = xs.put p.1 p.2 >>= (putAll · pairs) :=
      List.foldlM_cons
    rw [hcons, AttributeSet.putAll_cons, put_listing]
    cases s.put p.1 p.2 with
    | error err => rfl
    | ok t => exact ih t

/-- **Building makes the array of the set that is built.** -/
theorem ofPairs_eq (pairs : List (Attribute × Value)) :
    ofPairs pairs = (AttributeSet.ofPairs pairs).map AttributeSet.listing :=
  putAll_listing .empty pairs

/-- **Merging makes the array of the merged sets.** -/
theorem merge_listing (s t : AttributeSet) :
    merge s.listing t.listing = (s.merge t).map AttributeSet.listing := by
  rw [AttributeSet.merge_eq_putAll]
  exact putAll_listing s t.listing

/-! ## What operations make -/

theorem exists_set_of_map_eq_ok {x : Except AttributeError AttributeSet}
    (h : x.map AttributeSet.listing = .ok xs) : ∃ s : AttributeSet, s.listing = xs := by
  cases x with
  | error err => cases h
  | ok s => exact ⟨s, Except.ok.inj h⟩

/-- **Operations make the arrays of sets**, and nothing else. -/
theorem reachable_iff : Reachable xs ↔ ∃ s : AttributeSet, s.listing = xs := by
  constructor
  · intro h
    induction h with
    | empty => exact ⟨.empty, rfl⟩
    | put hx h ih =>
      obtain ⟨s, rfl⟩ := ih
      exact exists_set_of_map_eq_ok ((put_listing s _ _).symm.trans h)
    | ofPairs h => exact exists_set_of_map_eq_ok ((ofPairs_eq _).symm.trans h)
    | merge hx hy h ihx ihy =>
      obtain ⟨s, rfl⟩ := ihx
      obtain ⟨t, rfl⟩ := ihy
      exact exists_set_of_map_eq_ok ((merge_listing s t).symm.trans h)
  · rintro ⟨s, rfl⟩
    have hself : ofPairs s.listing = .ok s.listing := by
      rw [ofPairs_eq, AttributeSet.ofPairs_listing]
      rfl
    exact .ofPairs hself

theorem Reachable.canonical (h : Reachable xs) : Canonical xs := by
  obtain ⟨s, rfl⟩ := reachable_iff.mp h
  exact canonical_listing s

theorem Reachable.exists_represents (h : Reachable xs) : ∃ s, Represents xs s := by
  obtain ⟨s, rfl⟩ := reachable_iff.mp h
  exact ⟨s, represents_listing s⟩

/-- **Arrays in which the same is found are equal**, whatever made them. -/
theorem Reachable.eq_iff (hx : Reachable xs) (hy : Reachable ys) :
    xs = ys ↔ ∀ name, xs.entry? name = ys.entry? name := by
  constructor
  · rintro rfl name
    rfl
  · intro h
    obtain ⟨s, rfl⟩ := reachable_iff.mp hx
    obtain ⟨t, rfl⟩ := reachable_iff.mp hy
    refine congrArg AttributeSet.listing (AttributeSet.ext_entry? fun name => ?_)
    have hname := h name
    rw [entry?_listing, entry?_listing] at hname
    exact Option.map_injective (fun _ _ => Entry.pair_inj) hname

theorem exists_ofPairs_iff :
    (∃ xs, ofPairs pairs = .ok xs) ↔ AttributeSet.Consistent pairs := by
  rw [ofPairs_eq, ← AttributeSet.exists_ofPairs_iff]
  cases AttributeSet.ofPairs pairs with
  | error err => simp [Except.map]
  | ok s => simp [Except.map]

theorem ofPairs_eq_error_iff {err : AttributeError} :
    ofPairs pairs = .error err ↔ AttributeSet.ofPairs pairs = .error err := by
  rw [ofPairs_eq]
  cases AttributeSet.ofPairs pairs <;> simp [Except.map]

theorem entry?_of_ofPairs (h : ofPairs pairs = .ok xs) (name : String) :
    xs.entry? name = AttributeSet.lastGiven? pairs name := by
  rw [ofPairs_eq] at h
  cases hs : AttributeSet.ofPairs pairs with
  | error err =>
    rw [hs] at h
    cases h
  | ok s =>
    rw [hs] at h
    cases h
    rw [entry?_listing]
    exact (AttributeSet.ofPairs_eq_ok_iff.mp hs).2 name

/--
**Operations keep arrays canonical.** An array that they make is in byte order of names, its values
have the types of their attributes, halving finds in it what going through it finds, and it is the
array of a set. Building works for consistent pairs, for which it makes the array of what was given
last under each name, and otherwise fails at the first pair that offends. Whatever made two arrays,
they are equal when the same is found in them.
-/
theorem reachable_canonical (hx : xs.Reachable) (hy : ys.Reachable) (pairs : Listing) :
    xs.Canonical ∧ (∃ s, xs.Represents s) ∧
      ofPairs pairs = (AttributeSet.ofPairs pairs).map AttributeSet.listing ∧
      ((∃ zs, ofPairs pairs = .ok zs) ↔ AttributeSet.Consistent pairs) ∧
      (∀ zs, ofPairs pairs = .ok zs →
        ∀ name, zs.entry? name = AttributeSet.lastGiven? pairs name) ∧
      (∀ err, ofPairs pairs = .error err ↔ ∃ before p after, pairs = before ++ p :: after ∧
        AttributeSet.Consistent before ∧ AttributeSet.Offends before p err) ∧
      (xs = ys ↔ ∀ name, xs.entry? name = ys.entry? name) :=
  ⟨hx.canonical, hx.exists_represents, ofPairs_eq pairs, exists_ofPairs_iff,
    fun _ h => entry?_of_ofPairs h,
    fun _ => ofPairs_eq_error_iff.trans AttributeSet.ofPairs_eq_error_iff, hx.eq_iff hy⟩

def linux : Attribute × Value := (⟨"os", .string⟩, .string "linux")

def arm : Attribute × Value := (⟨"arch", .string⟩, .string "arm")

/-- Pairs that are given in another order, and one of them twice, make the same array. -/
theorem reachable_canonical_linux_arm :
    ofPairs [linux, arm] = .ok [arm, linux] ∧ Canonical [arm, linux] ∧
      (∀ name, entry? [arm, linux] name = AttributeSet.lastGiven? [arm, linux, arm] name) := by
  have hlinux : ofPairs [linux, arm] = .ok [arm, linux] := (ofPairs_eq _).trans rfl
  have harm : ofPairs [arm, linux, arm] = .ok [arm, linux] := (ofPairs_eq _).trans rfl
  obtain ⟨hcanonical, -, -, -, hlast, -, -⟩ :=
    reachable_canonical (.ofPairs hlinux) (.ofPairs harm) [arm, linux, arm]
  exact ⟨hlinux, hcanonical, hlast _ harm⟩

end Listing

end BuildInputs

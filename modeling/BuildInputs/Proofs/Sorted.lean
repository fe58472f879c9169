import Mathlib.Data.List.Perm.Subperm
import BuildInputs.Sorted

/-!
# Laws of sorted collections

A collection is determined by its elements (`ext_mem`), so two ways to build it agree as soon as
they put in the same elements. The lemmas here say for each operation what its result holds, in
terms of membership in `toList`; nothing after them looks at the order of the list.
-/

namespace BuildInputs

/-! ## Sorting -/

section Sorting

variable {α : Type} {cmp : α → α → Ordering} [Std.TransCmp cmp] {xs ys : List α}

theorem pairwise_mergeSort_isLE (xs : List α) :
    (xs.mergeSort fun a b => (cmp a b).isLE).Pairwise fun a b => (cmp a b).isLE := by
  refine List.pairwise_mergeSort (fun _ _ _ => Std.TransCmp.isLE_trans) (fun a b => ?_) xs
  have hswap : cmp b a = (cmp a b).swap := Std.OrientedCmp.eq_swap
  rw [hswap]
  cases cmp a b <;> rfl

/-- Sorting forgets the order of a list in which no two elements compare as equal. -/
theorem mergeSort_eq_of_perm_of_inj (h : xs.Perm ys)
    (hinj : ∀ a ∈ xs, ∀ b ∈ xs, cmp a b = .eq → a = b) :
    xs.mergeSort (fun a b => (cmp a b).isLE) = ys.mergeSort fun a b => (cmp a b).isLE := by
  refine List.Perm.eq_of_pairwise ?_ (pairwise_mergeSort_isLE xs) (pairwise_mergeSort_isLE ys)
    ((List.mergeSort_perm _ _).trans (h.trans (List.mergeSort_perm _ _).symm))
  intro a b ha hb hab hba
  exact hinj a (List.mem_mergeSort.mp ha) b (h.mem_iff.mpr (List.mem_mergeSort.mp hb))
    (Std.OrientedCmp.isLE_antisymm hab hba)

variable [Std.LawfulEqCmp cmp]

/-- **Sorting by a total order forgets the order of the list.** -/
theorem mergeSort_eq_of_perm (h : xs.Perm ys) :
    xs.mergeSort (fun a b => (cmp a b).isLE) = ys.mergeSort fun a b => (cmp a b).isLE :=
  mergeSort_eq_of_perm_of_inj h fun _ _ _ _ he => Std.LawfulEqCmp.eq_of_compare he

/-- It does not matter whether elements are left out before sorting or after it. -/
theorem mergeSort_filter (p : α → Bool) (xs : List α) :
    (xs.filter p).mergeSort (fun a b => (cmp a b).isLE) =
      (xs.mergeSort fun a b => (cmp a b).isLE).filter p := by
  have hperm := ((List.mergeSort_perm xs fun a b => (cmp a b).isLE).filter p).symm
  rw [mergeSort_eq_of_perm hperm]
  exact List.mergeSort_of_pairwise ((pairwise_mergeSort_isLE xs).filter p)

end Sorting

namespace SortedBy

variable {α κ : Type} [Ord κ] {key : α → κ} {s t : SortedBy key}

/-! ## Extensionality -/

section Order

variable [Std.TransOrd κ]

theorem key_ne_of_lt {a b : α} (h : compare (key a) (key b) = .lt) : key a ≠ key b := by
  intro he
  rw [he, Std.ReflOrd.compare_self] at h
  cases h

theorem nodup_toList (s : SortedBy key) : s.toList.Nodup :=
  s.sorted.imp fun h he => key_ne_of_lt h (congrArg key he)

theorem nodup_map_key (s : SortedBy key) : (s.toList.map key).Nodup :=
  List.pairwise_map.mpr (s.sorted.imp key_ne_of_lt)

/-- There is one element with a given key at most. -/
theorem eq_of_key_eq {a b : α} (ha : a ∈ s.toList) (hb : b ∈ s.toList) (h : key a = key b) :
    a = b := by
  refine List.Pairwise.forall_of_forall_of_flip (R := fun a b => key a = key b → a = b)
    (fun _ _ _ => rfl) ?_ ?_ ha hb h
  · exact s.sorted.imp fun hlt he => absurd he (key_ne_of_lt hlt)
  · exact s.sorted.imp fun hlt he => absurd he.symm (key_ne_of_lt hlt)

/-- **Collections with the same elements are equal.** -/
theorem ext_mem (h : ∀ a, a ∈ s.toList ↔ a ∈ t.toList) : s = t := by
  refine ext_toList (List.Perm.eq_of_pairwise ?_ s.sorted t.sorted
    ((List.perm_ext_iff_of_nodup s.nodup_toList t.nodup_toList).mpr h))
  intro a b _ _ hab hba
  rw [Std.OrientedCmp.gt_of_lt hab] at hba
  cases hba

/-- The keys of a collection, in increasing order. -/
def keySet (s : SortedBy key) : SortedSet κ :=
  ⟨s.toList.map key, List.pairwise_map.mpr s.sorted⟩

/-- Collections with the same keys have them in the same order. -/
theorem map_key_eq_of_mem_iff (h : ∀ k, k ∈ s.toList.map key ↔ k ∈ t.toList.map key) :
    s.toList.map key = t.toList.map key :=
  have hkeys : s.keySet = t.keySet := ext_mem h
  congrArg toList hkeys

/-! ## Putting in -/

variable [Std.LawfulEqOrd κ]

/-- Nothing with another key is lost or replaced. -/
theorem mem_insert {x z : α} :
    z ∈ (s.insert x).toList ↔ z = x ∨ (z ∈ s.toList ∧ key z ≠ key x) := by
  constructor
  · intro h
    by_cases hk : key z = key x
    · exact Or.inl (eq_of_key_eq h (mem_insertInto_self x s.toList) hk)
    · rcases mem_of_mem_insertInto h with rfl | h
      · exact Or.inl rfl
      · exact Or.inr ⟨h, hk⟩
  · rintro (rfl | ⟨h, hk⟩)
    · exact mem_insertInto_self z s.toList
    · exact mem_insertInto_of_mem h fun he => hk (Std.LawfulEqCmp.eq_of_compare he).symm

/-! ## Looking up -/

/-- The element with a key is the one that is found under it. -/
theorem find?_eq_some_iff {k : κ} {a : α} : s.find? k = some a ↔ a ∈ s.toList ∧ key a = k := by
  unfold find?
  constructor
  · intro h
    have hk := List.find?_some h
    rw [Ordering.isEq_iff_eq_eq] at hk
    exact ⟨List.mem_of_find?_eq_some h, Std.LawfulEqCmp.eq_of_compare hk⟩
  · rintro ⟨ha, rfl⟩
    cases hb : s.toList.find? fun b => (compare (key b) (key a)).isEq with
    | none => simpa using List.find?_eq_none.mp hb a ha
    | some b =>
      have hk := List.find?_some hb
      rw [Ordering.isEq_iff_eq_eq] at hk
      rw [eq_of_key_eq (List.mem_of_find?_eq_some hb) ha (Std.LawfulEqCmp.eq_of_compare hk)]

theorem find?_eq_none_iff {k : κ} : s.find? k = none ↔ ∀ a ∈ s.toList, key a ≠ k := by
  constructor
  · intro h a ha hk
    rw [find?_eq_some_iff.mpr ⟨ha, hk⟩] at h
    cases h
  · intro h
    cases hf : s.find? k with
    | none => rfl
    | some a =>
      have ⟨ha, hk⟩ := find?_eq_some_iff.mp hf
      exact absurd hk (h a ha)

/-- **Collections in which the same is found are equal.** -/
theorem ext_find? (h : ∀ k, s.find? k = t.find? k) : s = t := by
  refine ext_mem fun a => ?_
  have hs : s.find? (key a) = some a ↔ a ∈ s.toList := by simp [find?_eq_some_iff]
  have ht : t.find? (key a) = some a ↔ a ∈ t.toList := by simp [find?_eq_some_iff]
  rw [← hs, ← ht, h]

/-- Putting in an element changes what is found under its key, and nothing else. -/
theorem find?_insert [DecidableEq κ] {x : α} {k : κ} :
    (s.insert x).find? k = if key x = k then some x else s.find? k := by
  ext a
  rw [find?_eq_some_iff, mem_insert]
  by_cases hk : key x = k
  · rw [if_pos hk]
    constructor
    · rintro ⟨rfl | ⟨-, hne⟩, ha⟩
      · rfl
      · exact absurd (ha.trans hk.symm) hne
    · rintro ⟨rfl⟩
      exact ⟨Or.inl rfl, hk⟩
  · rw [if_neg hk, find?_eq_some_iff]
    constructor
    · rintro ⟨rfl | ⟨ha, -⟩, hak⟩
      · exact absurd hak hk
      · exact ⟨ha, hak⟩
    · rintro ⟨ha, hak⟩
      exact ⟨Or.inr ⟨ha, fun he => hk (he ▸ hak)⟩, hak⟩

end Order

theorem contains_iff [Std.LawfulEqOrd κ] {k : κ} :
    s.contains k = true ↔ ∃ a ∈ s.toList, key a = k := by
  unfold contains
  rw [List.any_eq_true]
  refine exists_congr fun a => and_congr_right fun _ => ?_
  rw [Ordering.isEq_iff_eq_eq]
  exact ⟨Std.LawfulEqCmp.eq_of_compare, fun h => h ▸ Std.ReflOrd.compare_self⟩

/-! ## Selecting -/

theorem mem_filter {p : α → Bool} {a : α} : a ∈ (s.filter p).toList ↔ a ∈ s.toList ∧ p a = true :=
  List.mem_filter

theorem mem_empty {a : α} : a ∉ (empty : SortedBy key).toList := List.not_mem_nil

theorem mem_singleton {a b : α} : a ∈ (singleton b : SortedBy key).toList ↔ a = b :=
  List.mem_singleton

theorem isEmpty_iff : s.isEmpty = true ↔ ∀ a, a ∉ s.toList := by
  unfold isEmpty
  rw [List.isEmpty_iff, List.eq_nil_iff_forall_not_mem]

/-- A part of a collection that is as large is the whole. -/
theorem eq_of_size_eq [Std.TransOrd κ] (h : ∀ a ∈ s.toList, a ∈ t.toList)
    (hsize : s.size = t.size) : s = t := by
  have hsub : s.toList.Subperm t.toList := List.subperm_of_subset s.nodup_toList h
  have hperm : s.toList.Perm t.toList := hsub.perm_of_length_le (Nat.le_of_eq hsize.symm)
  exact ext_mem fun a => hperm.mem_iff

/-- The last element has the greatest key. -/
theorem max?_eq_some [Std.TransOrd κ] {m : α} (h : s.max? = some m) :
    m ∈ s.toList ∧ ∀ a ∈ s.toList, (compare (key a) (key m)).isLE := by
  obtain ⟨front, hfront⟩ := List.getLast?_eq_some_iff.mp h
  have hsorted := s.sorted
  rw [hfront, List.pairwise_append] at hsorted
  rw [hfront]
  refine ⟨by simp, fun a ha => ?_⟩
  rcases List.mem_append.mp ha with ha | ha
  · exact Ordering.isLE_of_eq_lt (hsorted.2.2 a ha m (by simp))
  · rw [List.mem_singleton.mp ha]
    exact Std.ReflOrd.isLE_rfl

/-- The first element has the least key. -/
theorem min?_eq_some [Std.TransOrd κ] {m : α} (h : s.min? = some m) :
    m ∈ s.toList ∧ ∀ a ∈ s.toList, (compare (key m) (key a)).isLE := by
  obtain ⟨rest, hrest⟩ := List.head?_eq_some_iff.mp h
  have hsorted := s.sorted
  rw [hrest, List.pairwise_cons] at hsorted
  rw [hrest]
  refine ⟨List.mem_cons_self, fun a ha => ?_⟩
  rcases List.mem_cons.mp ha with rfl | ha
  · exact Std.ReflOrd.isLE_rfl
  · exact Ordering.isLE_of_eq_lt (hsorted.1 a ha)

theorem exists_max? {a : α} (h : a ∈ s.toList) : ∃ m, s.max? = some m :=
  Option.isSome_iff_exists.mp (List.getLast?_isSome.mpr (List.ne_nil_of_mem h))

theorem exists_min? {a : α} (h : a ∈ s.toList) : ∃ m, s.min? = some m :=
  Option.isSome_iff_exists.mp (List.isSome_head?.mpr (List.ne_nil_of_mem h))

end SortedBy

/-! ## Sets -/

namespace SortedSet

variable {α : Type} [Ord α] [Std.LawfulEqOrd α] {s : SortedSet α} {a b : α}

theorem contains_iff_mem : s.contains a = true ↔ a ∈ s.toList := by
  rw [SortedBy.contains_iff]
  exact ⟨fun ⟨_, hb, he⟩ => he ▸ hb, fun h => ⟨a, h, rfl⟩⟩

theorem mem_insert [Std.TransOrd α] : a ∈ (s.insert b).toList ↔ a = b ∨ a ∈ s.toList := by
  rw [SortedBy.mem_insert]
  constructor
  · exact Or.imp_right And.left
  · intro h
    by_cases he : a = b
    · exact Or.inl he
    · exact Or.inr ⟨h.resolve_left he, he⟩

variable [Std.TransOrd α]

theorem mem_foldl_insert {xs : List α} {init : SortedSet α} :
    a ∈ (xs.foldl (fun s x => s.insert x) init).toList ↔ a ∈ xs ∨ a ∈ init.toList := by
  induction xs generalizing init with
  | nil => simp
  | cons x xs ih =>
    rw [List.foldl_cons, ih, mem_insert, List.mem_cons, or_left_comm, or_assoc]

/-- A set that is built from a list holds the elements of the list. -/
theorem mem_ofList {xs : List α} : a ∈ (SortedBy.ofList xs : SortedSet α).toList ↔ a ∈ xs := by
  unfold SortedBy.ofList
  rw [mem_foldl_insert]
  exact or_iff_left SortedBy.mem_empty

end SortedSet

end BuildInputs

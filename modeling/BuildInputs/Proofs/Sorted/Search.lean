import BuildInputs.Proofs.Sorted

/-!
# Searching by halving

A key is looked for between two bounds by comparing with the element in the middle. The search ends
at an element with the key, or at the place where such an element would have to be put. On a list in
strictly increasing key order this is what going through the elements one by one comes to:

* `lookup_eq_find?` — the element that is found is the first one with the key
* `set_eq_insertInto`, `insertIdx_eq_insertInto` — to replace the element that is found, or to put
  one into the place that is found, is to insert it

The order is what halving relies on: everything before the place that is found has smaller keys, and
everything from there on larger ones (`separates_of_search_free`).
-/

namespace BuildInputs.SortedBy

variable {α κ : Type}

/-- How a search in a list of this length ends. -/
inductive Place (length : Nat)
  /-- At an element with the key. -/
  | occupied (i : Fin length)
  /-- Where an element with the key would have to be put. -/
  | free (i : Nat)

/-- Search between two bounds. The order tells how an element compares to the key. -/
def searchBetween (order : α → Ordering) (xs : List α) (low high : Nat) (h : high ≤ xs.length) :
    Place xs.length :=
  if hlow : low < high then
    let middle := low + (high - low) / 2
    have hmiddle : middle < xs.length := by omega
    match order xs[middle] with
    | .eq => .occupied ⟨middle, hmiddle⟩
    | .lt => searchBetween order xs (middle + 1) high h
    | .gt => searchBetween order xs low middle (by omega)
  else .free low
termination_by high - low

/-- Search for a key. -/
def search [Ord κ] (key : α → κ) (xs : List α) (k : κ) : Place xs.length :=
  searchBetween (fun x => compare (key x) k) xs 0 xs.length (Nat.le_refl _)

/-- The element with the key, found by halving. -/
def lookup [Ord κ] (key : α → κ) (xs : List α) (k : κ) : Option α :=
  match search key xs k with
  | .occupied i => some xs[i]
  | .free _ => none

/-! ## Where a search ends -/

/-- What is found has the key, in whatever order the elements are. -/
theorem order_of_searchBetween_occupied {order : α → Ordering} {xs : List α} {low high : Nat}
    {h : high ≤ xs.length} {i : Fin xs.length}
    (hs : searchBetween order xs low high h = .occupied i) : order xs[i] = .eq := by
  fun_induction searchBetween order xs low high h with
  | case1 low high h hlow middle hmiddle heq => exact Place.occupied.inj hs ▸ heq
  | case2 low high h hlow middle hmiddle hlt ih => exact ih hs
  | case3 low high h hlow middle hmiddle hgt ih => exact ih hs
  | case4 low high h hlow => cases hs

section Sorted

variable [Ord κ] {key : α → κ} {xs ys : List α} {k : κ} {x y : α} {i j low high : Nat}

/-- A place between the elements with smaller keys and those with larger ones. -/
structure Separates (key : α → κ) (xs : List α) (k : κ) (i : Nat) : Prop where
  le_length : i ≤ xs.length
  lt_of_lt : ∀ j (hj : j < xs.length), j < i → compare (key xs[j]) k = .lt
  gt_of_le : ∀ j (hj : j < xs.length), i ≤ j → compare (key xs[j]) k = .gt

theorem Separates.tail (h : Separates key (y :: ys) k (i + 1)) : Separates key ys k i where
  le_length := Nat.le_of_succ_le_succ h.le_length
  lt_of_lt j hj hlt := h.lt_of_lt (j + 1) (Nat.succ_lt_succ hj) (Nat.succ_lt_succ hlt)
  gt_of_le j hj hle := h.gt_of_le (j + 1) (Nat.succ_lt_succ hj) (Nat.succ_le_succ hle)

theorem key_of_search_occupied [Std.LawfulEqOrd κ] {i : Fin xs.length}
    (hs : search key xs k = .occupied i) : key xs[i] = k :=
  Std.LawfulEqCmp.eq_of_compare (order_of_searchBetween_occupied hs)

variable [Std.TransOrd κ]

theorem lt_of_le_of_lt (hsorted : xs.Pairwise fun a b => compare (key a) (key b) = .lt)
    (hj : j < xs.length) (hij : i ≤ j) (h : compare (key xs[j]) k = .lt) :
    compare (key xs[i]) k = .lt := by
  rcases Nat.eq_or_lt_of_le hij with rfl | hij
  · exact h
  · exact Std.TransCmp.lt_trans
      (List.pairwise_iff_getElem.mp hsorted i j (Nat.lt_trans hij hj) hj hij) h

theorem gt_of_le_of_gt (hsorted : xs.Pairwise fun a b => compare (key a) (key b) = .lt)
    (hj : j < xs.length) (hij : i ≤ j) (h : compare (key xs[i]) k = .gt) :
    compare (key xs[j]) k = .gt := by
  rcases Nat.eq_or_lt_of_le hij with rfl | hij
  · exact h
  · exact Std.OrientedCmp.gt_of_lt (Std.TransCmp.lt_trans (Std.OrientedCmp.lt_of_gt h)
      (List.pairwise_iff_getElem.mp hsorted i j (Nat.lt_trans hij hj) hj hij))

/--
Halving keeps smaller keys before the lower bound and larger ones from the upper bound on, so they
are separated where the bounds meet.
-/
theorem separates_of_searchBetween_free {h : high ≤ xs.length}
    (hsorted : xs.Pairwise fun a b => compare (key a) (key b) = .lt)
    (hbelow : ∀ j (hj : j < xs.length), j < low → compare (key xs[j]) k = .lt)
    (habove : ∀ j (hj : j < xs.length), high ≤ j → compare (key xs[j]) k = .gt)
    (hbounds : low ≤ high)
    (hs : searchBetween (fun x => compare (key x) k) xs low high h = .free i) :
    Separates key xs k i := by
  fun_induction searchBetween (fun x => compare (key x) k) xs low high h with
  | case1 => cases hs
  | case2 low high h hlow middle hmiddle hless ih =>
    refine ih (fun j hj hlt => ?_) habove (by omega) hs
    exact lt_of_le_of_lt hsorted hmiddle (by omega) hless
  | case3 low high h hlow middle hmiddle hgreater ih =>
    refine ih hbelow (fun j hj hle => ?_) (by omega) hs
    exact gt_of_le_of_gt hsorted hj hle hgreater
  | case4 low high h hlow =>
    obtain rfl : low = i := Place.free.inj hs
    obtain rfl : high = low := by omega
    exact ⟨h, hbelow, habove⟩

/-- **The place that is found separates smaller keys from larger ones.** -/
theorem separates_of_search_free
    (hsorted : xs.Pairwise fun a b => compare (key a) (key b) = .lt)
    (hs : search key xs k = .free i) : Separates key xs k i :=
  separates_of_searchBetween_free hsorted (by intros; omega) (by intros; omega) (Nat.zero_le _) hs

/-! ## Halving and going through the elements -/

omit [Std.TransOrd κ] in
theorem insertInto_map {β : Type} {f : β → α} {z : β} (zs : List β) :
    insertInto key (f z) (zs.map f) = (insertInto (fun b => key (f b)) z zs).map f := by
  induction zs with
  | nil => rfl
  | cons w zs ih =>
    rw [List.map_cons, insertInto, insertInto, ih]
    cases compare (key (f z)) (key (f w)) <;> rfl

/-- **An element that is put into its place is inserted.** -/
theorem insertIdx_eq_insertInto (h : Separates key xs (key x) i) :
    xs.insertIdx i x = insertInto key x xs := by
  induction xs generalizing i with
  | nil =>
    obtain rfl : i = 0 := Nat.le_zero.mp h.le_length
    rfl
  | cons y ys ih =>
    cases i with
    | zero =>
      have hgt : compare (key y) (key x) = .gt := h.gt_of_le 0 (Nat.succ_pos _) (Nat.le_refl 0)
      rw [insertInto, Std.OrientedCmp.lt_of_gt hgt]
      rfl
    | succ i =>
      have hlt : compare (key y) (key x) = .lt := h.lt_of_lt 0 (Nat.succ_pos _) (Nat.succ_pos i)
      rw [insertInto, Std.OrientedCmp.gt_of_lt hlt, List.insertIdx_succ_cons, ih h.tail]

variable [Std.LawfulEqOrd κ]

/-- **An element that replaces the one with its key is inserted.** -/
theorem set_eq_insertInto (hsorted : xs.Pairwise fun a b => compare (key a) (key b) = .lt)
    (hi : i < xs.length) (hkey : key xs[i] = key x) : xs.set i x = insertInto key x xs := by
  induction xs generalizing i with
  | nil => cases hi
  | cons y ys ih =>
    obtain ⟨hy, hsorted⟩ := List.pairwise_cons.mp hsorted
    cases i with
    | zero =>
      have hkey : key y = key x := hkey
      rw [insertInto, hkey, Std.ReflOrd.compare_self]
      rfl
    | succ i =>
      have hi : i < ys.length := Nat.lt_of_succ_lt_succ hi
      have hkey : key ys[i] = key x := hkey
      have hlt : compare (key y) (key x) = .lt := hkey ▸ hy _ (List.getElem_mem hi)
      rw [insertInto, Std.OrientedCmp.gt_of_lt hlt, List.set_cons_succ, ih hsorted hi hkey]

/-- **What halving finds is found by going through the elements.** -/
theorem lookup_eq_find? (hsorted : xs.Pairwise fun a b => compare (key a) (key b) = .lt) (k : κ) :
    lookup key xs k = xs.find? fun x => (compare (key x) k).isEq := by
  unfold lookup
  cases hs : search key xs k with
  | occupied i =>
    have hkey : key xs[i] = k := key_of_search_occupied hs
    symm
    refine List.find?_eq_some_iff_getElem.mpr
      ⟨by simpa using hkey, i, i.isLt, rfl, fun j hj => ?_⟩
    have hlt := List.pairwise_iff_getElem.mp hsorted j i (Nat.lt_trans hj i.isLt) i.isLt hj
    have hlt : compare (key xs[j]) k = .lt := hkey ▸ hlt
    simp [hlt]
  | free i =>
    have hseparates := separates_of_search_free hsorted hs
    symm
    rw [List.find?_eq_none]
    intro x hx
    obtain ⟨j, hj, rfl⟩ := List.mem_iff_getElem.mp hx
    rcases Nat.lt_or_ge j i with hlt | hge
    · simp [hseparates.lt_of_lt j hj hlt]
    · simp [hseparates.gt_of_le j hj hge]

end Sorted

end BuildInputs.SortedBy

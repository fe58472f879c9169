/-!
# Collections in strictly increasing key order

`SortedBy key` is a list whose elements have strictly increasing keys. It serves as a finite map
whose entries hold their own key (`SortedBy Entry.name`) and, with `key := id`, as a finite set.
One collection has one representation, so equal contents are equal values.

`insert` keeps the order, which is a field of the type; `mem_of_mem_ofList` and `mem_ofList` say
what a collection built from a list holds.
-/

namespace BuildInputs

/-- A list with strictly increasing keys. -/
structure SortedBy {α κ : Type} [Ord κ] (key : α → κ) where
  toList : List α
  sorted : toList.Pairwise fun a b => compare (key a) (key b) = .lt

namespace SortedBy

variable {α κ : Type} [Ord κ] {key : α → κ}

instance [DecidableEq α] : DecidableEq (SortedBy key) := fun s t =>
  if h : s.toList = t.toList then
    isTrue (by cases s; cases t; cases h; rfl)
  else
    isFalse (fun e => h (e ▸ rfl))

/-- Two sorted collections with the same elements in the same order are equal. -/
theorem ext_toList {s t : SortedBy key} (h : s.toList = t.toList) : s = t := by
  cases s; cases t; cases h; rfl

/-- The collection without elements. -/
def empty : SortedBy key := ⟨[], .nil⟩

instance : Inhabited (SortedBy key) := ⟨empty⟩

/-- Put `x` before the first larger key. An element with an equal key is replaced. -/
def insertInto (key : α → κ) (x : α) : List α → List α
  | [] => [x]
  | y :: ys =>
    match compare (key x) (key y) with
    | .lt => x :: y :: ys
    | .eq => x :: ys
    | .gt => y :: insertInto key x ys

theorem mem_of_mem_insertInto {x z : α} {ys : List α} (h : z ∈ insertInto key x ys) :
    z = x ∨ z ∈ ys := by
  induction ys with
  | nil => simpa [insertInto] using h
  | cons y ys ih =>
    rw [insertInto] at h
    split at h <;> simp only [List.mem_cons] at h ⊢
    · exact h
    · exact h.imp_right .inr
    · rcases h with h | h
      · exact .inr (.inl h)
      · exact (ih h).imp_right .inr

theorem pairwise_insertInto [Std.TransOrd κ] (x : α) {ys : List α}
    (h : ys.Pairwise fun a b => compare (key a) (key b) = .lt) :
    (insertInto key x ys).Pairwise fun a b => compare (key a) (key b) = .lt := by
  induction ys with
  | nil => simp [insertInto]
  | cons y ys ih =>
    have ⟨hy, hys⟩ := List.pairwise_cons.mp h
    rw [insertInto]
    split
    next hxy =>
      refine List.pairwise_cons.mpr ⟨fun z hz => ?_, h⟩
      rcases List.mem_cons.mp hz with rfl | hz
      · exact hxy
      · exact Std.TransCmp.lt_trans hxy (hy z hz)
    next hxy =>
      exact List.pairwise_cons.mpr
        ⟨fun z hz => Std.TransCmp.lt_of_eq_of_lt hxy (hy z hz), hys⟩
    next hxy =>
      refine List.pairwise_cons.mpr ⟨fun z hz => ?_, ih hys⟩
      rcases mem_of_mem_insertInto hz with rfl | hz
      · exact Std.OrientedCmp.lt_of_gt hxy
      · exact hy z hz

/-- Add `x`, in the place of the element with the same key when there is one. -/
def insert [Std.TransOrd κ] (x : α) (s : SortedBy key) : SortedBy key :=
  ⟨insertInto key x s.toList, pairwise_insertInto x s.sorted⟩

/-- Insert the elements one after the other: of equal keys the last one stays. -/
def ofList [Std.TransOrd κ] (xs : List α) : SortedBy key :=
  xs.foldl (fun s x => s.insert x) empty

/-! ### What a collection built from a list holds -/

theorem mem_insertInto_self (x : α) (ys : List α) : x ∈ insertInto key x ys := by
  induction ys with
  | nil => simp [insertInto]
  | cons y ys ih => rw [insertInto]; split <;> simp [ih]

/-- An element stays unless its key equals the new one. -/
theorem mem_insertInto_of_mem {x z : α} {ys : List α} (h : z ∈ ys)
    (hne : compare (key x) (key z) ≠ .eq) : z ∈ insertInto key x ys := by
  induction ys with
  | nil => simp at h
  | cons y ys ih =>
    rw [insertInto]
    rcases List.mem_cons.mp h with rfl | h
    · split <;> simp_all
    · split <;> simp_all

theorem mem_toList_foldl_insert [Std.TransOrd κ] {z : α} (xs : List α) (s : SortedBy key)
    (h : z ∈ (xs.foldl (fun s x => s.insert x) s).toList) : z ∈ xs ∨ z ∈ s.toList := by
  induction xs generalizing s with
  | nil => exact .inr h
  | cons x xs ih =>
    rcases ih _ h with h | h
    · exact .inl (List.mem_cons_of_mem _ h)
    · rcases mem_of_mem_insertInto h with rfl | h
      · exact .inl List.mem_cons_self
      · exact .inr h

/-- Nothing is in a collection that was not put in. -/
theorem mem_of_mem_ofList [Std.TransOrd κ] {z : α} {xs : List α}
    (h : z ∈ (ofList xs : SortedBy key).toList) : z ∈ xs := by
  rcases mem_toList_foldl_insert xs empty h with h | h
  · exact h
  · simp [empty] at h

theorem mem_foldl_insert_of_mem [Std.TransOrd κ] {z : α} (xs : List α) (s : SortedBy key)
    (hs : z ∈ s.toList) (hne : ∀ x ∈ xs, compare (key x) (key z) ≠ .eq) :
    z ∈ (xs.foldl (fun s x => s.insert x) s).toList := by
  induction xs generalizing s with
  | nil => exact hs
  | cons x xs ih =>
    exact ih _ (mem_insertInto_of_mem hs (hne x List.mem_cons_self))
      fun w hw => hne w (List.mem_cons_of_mem _ hw)

theorem mem_foldl_insert [Std.TransOrd κ] [Std.LawfulEqOrd κ] {z : α} (xs : List α)
    (s : SortedBy key) (hd : (xs.map key).Nodup) (h : z ∈ xs) :
    z ∈ (xs.foldl (fun s x => s.insert x) s).toList := by
  induction xs generalizing s with
  | nil => simp at h
  | cons x xs ih =>
    have ⟨hx, hd⟩ := List.nodup_cons.mp hd
    rcases List.mem_cons.mp h with rfl | h
    · refine mem_foldl_insert_of_mem xs _ (mem_insertInto_self _ _) fun w hw he => hx ?_
      rw [← Std.LawfulEqCmp.eq_of_compare he]
      exact List.mem_map_of_mem hw
    · exact ih _ hd h

/-- With distinct keys every element of the list is kept. -/
theorem mem_ofList [Std.TransOrd κ] [Std.LawfulEqOrd κ] {z : α} {xs : List α}
    (hd : (xs.map key).Nodup) (h : z ∈ xs) : z ∈ (ofList xs : SortedBy key).toList :=
  mem_foldl_insert xs empty hd h

/-! ### Looking up and selecting -/

/-- The element with key `k`. -/
def find? (s : SortedBy key) (k : κ) : Option α :=
  s.toList.find? fun a => (compare (key a) k).isEq

/-- Whether some element has key `k`. -/
def contains (s : SortedBy key) (k : κ) : Bool :=
  s.toList.any fun a => (compare (key a) k).isEq

/-- The number of elements. -/
def size (s : SortedBy key) : Nat := s.toList.length

def isEmpty (s : SortedBy key) : Bool := s.toList.isEmpty

/-- Keep the elements that pass the test. -/
def filter (p : α → Bool) (s : SortedBy key) : SortedBy key :=
  ⟨s.toList.filter p, s.sorted.sublist List.filter_sublist⟩

/-- The element with the least key. -/
def min? (s : SortedBy key) : Option α := s.toList.head?

/-- The element with the greatest key. -/
def max? (s : SortedBy key) : Option α := s.toList.getLast?

/-- The collection of one element. -/
def singleton (x : α) : SortedBy key := ⟨[x], by simp⟩

end SortedBy

/-- A finite set, as the increasing list of its elements. -/
abbrev SortedSet (α : Type) [Ord α] := SortedBy (id : α → α)

end BuildInputs

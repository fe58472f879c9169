import BuildInputs.Proofs.Snapshot.Trails

/-!
# Where locations lie in a tree

A location may occur at several places in one tree. What tells the places apart is the address:
which child to take at every level on the way down. A visit goes through all addresses in increasing
order, where a way comes before its continuations, and of two ways that part the one to the earlier
child comes first.

1. `addresses` lists the ways down in the order of a visit. They lead to every place
   (`mem_addresses_iff`) and are increasing (`pairwise_addresses`).
2. Where an address leads, and through which names, is what the visit finds at the same position of
   its list (`map_descend?_addresses`).
3. Names that are not empty and hold no slash are read back from the relative path.
-/

namespace BuildInputs

/-- A way down from a location: the numbers of the children to take, level by level. -/
abbrev Address := List Nat

namespace Location

variable {l : Location} {a : Address} {i : Nat}

/-- The location that an address leads to, with the names on the way to it. -/
def descend? (l : Location) : Address → Option (Trail × Location)
  | [] => some ([], l)
  | i :: a => l.children[i]?.bind fun c => (descend? c a).map (Prod.map (c.name :: ·) id)

theorem descend?_nil (l : Location) : l.descend? [] = some ([], l) := rfl

theorem descend?_cons (l : Location) (i : Nat) (a : Address) : l.descend? (i :: a) =
    l.children[i]?.bind fun c => (c.descend? a).map (Prod.map (c.name :: ·) id) := rfl

theorem isSome_descend?_cons_iff : (l.descend? (i :: a)).isSome ↔
    ∃ c, l.children[i]? = some c ∧ (c.descend? a).isSome := by
  rw [descend?_cons]
  cases l.children[i]? <;> simp

/-! ## The list of addresses -/

mutual

/-- The addresses of a location and of everything below it, in the order of a visit. -/
def addresses : Location → List Address
  | directory _ cs => [] :: addressesBelow 0 cs
  | _ => [[]]

/-- The same for some children, the first of which has the given number. -/
def addressesBelow (number : Nat) : List Location → List Address
  | [] => []
  | c :: cs => (addresses c).map (number :: ·) ++ addressesBelow (number + 1) cs

end

theorem addressesBelow_eq_flatMap (number : Nat) (cs : List Location) : addressesBelow number cs =
    (cs.zipIdx number).flatMap fun (c, i) => c.addresses.map (i :: ·) := by
  induction cs generalizing number with
  | nil => rfl
  | cons c cs ih => rw [addressesBelow, ih, List.zipIdx_cons, List.flatMap_cons]

theorem addresses_eq_cons (l : Location) : l.addresses =
    [] :: l.children.zipIdx.flatMap fun (c, i) => c.addresses.map (i :: ·) := by
  rw [← addressesBelow_eq_flatMap]
  cases l <;> simp only [addresses, addressesBelow, children]

theorem cons_mem_addresses_iff : i :: a ∈ l.addresses ↔
    ∃ c, l.children[i]? = some c ∧ a ∈ c.addresses := by
  rw [addresses_eq_cons, List.mem_cons, List.mem_flatMap]
  constructor
  · rintro (h | ⟨⟨c, j⟩, hc, h⟩)
    · exact absurd h (List.cons_ne_nil i a)
    · obtain ⟨b, hb, heq⟩ := List.mem_map.mp h
      obtain ⟨rfl, rfl⟩ := List.cons.inj heq
      exact ⟨c, List.mem_zipIdx_iff_getElem?.mp hc, hb⟩
  · rintro ⟨c, hc, ha⟩
    exact .inr ⟨(c, i), List.mem_zipIdx_iff_getElem?.mpr hc, List.mem_map_of_mem ha⟩

/-- **The list has every address that leads somewhere**, and no other one. -/
theorem mem_addresses_iff : a ∈ l.addresses ↔ (l.descend? a).isSome := by
  induction a generalizing l with
  | nil =>
    rw [addresses_eq_cons]
    exact iff_of_true List.mem_cons_self rfl
  | cons i a ih =>
    rw [cons_mem_addresses_iff, isSome_descend?_cons_iff]
    exact exists_congr fun c => and_congr_right fun _ => ih

/-- **The addresses are increasing**: parents come before children, and siblings in their order. -/
theorem pairwise_addresses (l : Location) : l.addresses.Pairwise (· < ·) := by
  induction l using childInduction with
  | step l ih =>
    rw [addresses_eq_cons, List.pairwise_cons, List.pairwise_flatMap]
    refine ⟨fun a ha => ?_, fun (c, i) hc => ?_, ?_⟩
    · -- the location itself comes before everything below it
      obtain ⟨⟨c, i⟩, -, ha⟩ := List.mem_flatMap.mp ha
      obtain ⟨b, -, rfl⟩ := List.mem_map.mp ha
      exact List.nil_lt_cons i b
    · have hchild : c.addresses.Pairwise (· < ·) := ih c (List.fst_mem_of_mem_zipIdx hc)
      rw [List.pairwise_map]
      exact hchild.imp fun hlt => List.cons_lt_cons_iff.mpr (.inr ⟨rfl, hlt⟩)
    · have hnumbers : l.children.zipIdx.Pairwise fun x y => x.2 < y.2 := by
        rw [← List.pairwise_map, List.zipIdx_map_snd]
        exact List.pairwise_lt_range' 1
      refine hnumbers.imp fun {x y} hlt a ha b hb => ?_
      obtain ⟨a, -, rfl⟩ := List.mem_map.mp ha
      obtain ⟨b, -, rfl⟩ := List.mem_map.mp hb
      exact List.cons_lt_cons_iff.mpr (.inl hlt)

/-! ## Where addresses lead -/

/-- **The addresses lead to the locations of the tree**, one after the other. -/
theorem map_descend?_addresses (l : Location) :
    l.addresses.map l.descend? = l.trails.map some := by
  induction l using childInduction with
  | step l ih =>
    rw [addresses_eq_cons, trails_eq_cons, trailsBelow_eq_flatMap, List.map_cons, List.map_cons,
      descend?_nil, List.map_flatMap, List.map_flatMap]
    have hchildren : l.children = l.children.zipIdx.map Prod.fst := (List.zipIdx_map_fst 0 _).symm
    refine congrArg (_ :: ·) ?_
    conv_rhs => rw [hchildren, List.flatMap_map]
    refine List.flatMap_congr fun (c, i) hc => ?_
    have hchild : l.children[i]? = some c := List.mem_zipIdx_iff_getElem?.mp hc
    have hdescend : l.descend? ∘ (i :: ·) =
        Option.map (Prod.map (c.name :: ·) id) ∘ c.descend? := by
      funext a
      rw [Function.comp_apply, descend?_cons, hchild]
      rfl
    rw [List.map_map, hdescend, ← List.map_map, ih c (List.fst_mem_of_mem_zipIdx hc),
      List.map_map, List.map_map]
    rfl

/--
**Relative paths identify locations.** Let children of one directory have different names, which are
not empty and hold no slash. A visit goes through the addresses that lead somewhere in increasing
order, so it calls at every place once, at parents before their children and at siblings in their
order. What it finds at each call is the location at the address, and its relative path splits into
the names on the way there, none for the root itself. No two relative paths are equal.
-/
theorem visit_identifies {l : Location} (h : l.ProperNames) :
    (∃ as : List Address, as.Pairwise (· < ·) ∧ (∀ a, a ∈ as ↔ (l.descend? a).isSome) ∧
        (l.visit.map fun (relative, m) => some (trailOf relative, m)) = as.map l.descend?) ∧
      (l.visit.map Prod.fst).Nodup := by
  rw [visit_eq_map_trails h.name_ne_empty, List.map_map, List.map_map]
  refine ⟨⟨l.addresses, pairwise_addresses l, fun a => mem_addresses_iff, ?_⟩, ?_⟩
  · rw [map_descend?_addresses]
    refine List.map_congr_left fun e he => ?_
    have hread : trailOf (trailText e.1) = e.1 := trailOf_trailText (isName_of_mem_trails h e he)
    exact congrArg (fun t => some (t, e.2)) hread
  · exact nodup_map_trailText h

/-- One file at two places, the deeper one in a directory that is visited first. -/
def twoCopies : Location :=
  .directory ⟨"/r"⟩ [.directory ⟨"/r/sub"⟩ [.file ⟨"x"⟩ ⟨"1"⟩], .file ⟨"x"⟩ ⟨"1"⟩]

theorem properNames_twoCopies : twoCopies.ProperNames := by
  have hsub : (Location.directory ⟨"/r/sub"⟩ [.file ⟨"x"⟩ ⟨"1"⟩]).ProperNames :=
    properNames_below (by decide) (.file _ _)
  exact .directory (by decide) (by decide)
    (List.forall_mem_cons.mpr ⟨hsub, List.forall_mem_singleton.mpr (.file _ _)⟩)

/-- Both places of the file are visited, each under its own relative path. -/
theorem visit_identifies_twoCopies :
    twoCopies.ProperNames ∧ twoCopies.descend? [0, 0] = some (["sub", "x"], .file ⟨"x"⟩ ⟨"1"⟩) ∧
      twoCopies.descend? [1] = some (["x"], .file ⟨"x"⟩ ⟨"1"⟩) ∧
      twoCopies.visit.map Prod.fst = ["", "sub", "sub/x", "x"] ∧
      ∃ as : List Address, as.Pairwise (· < ·) ∧ [0, 0] ∈ as ∧ [1] ∈ as ∧
        (twoCopies.visit.map fun (relative, m) => some (trailOf relative, m)) =
          as.map twoCopies.descend? := by
  obtain ⟨⟨as, hsorted, hmem, hvisit⟩, -⟩ := visit_identifies properNames_twoCopies
  exact ⟨properNames_twoCopies, rfl, rfl, by decide, as, hsorted, (hmem _).mpr rfl,
    (hmem _).mpr rfl, hvisit⟩

end Location

end BuildInputs

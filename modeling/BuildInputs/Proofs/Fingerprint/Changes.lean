import BuildInputs.Proofs.Fingerprint.Summary
import BuildInputs.Proofs.Sorted

/-!
# What changes tell of hashes

Two fingerprints are compared by identity, whatever root an entry is found under; their hashes also
depend on which roots hold the entries. So a hash can change without a change of any identity, and
it does so in one way only: the same identities, each with the same contents in the same order, are
spread over the roots in another way.

1. A comparison groups the entries of both fingerprints, looks up each group of the one among those
   of the other, and sorts what it finds. It comes to a look at every identity of both
   (`changesSince_eq`), so nothing changed when every identity has the same contents
   (`changesSince_eq_nil_iff`).
2. Contents by identity, together with the identities root by root (`layout`), give back the blocks
   of a fingerprint, hence its hash (`hash_eq_of_hashesOf_eq`).
3. One block alone is given back by the contents, since it is sorted (`blocks_eq_of_perm`).
-/

namespace BuildInputs

/-! ## Contents by identity -/

namespace Block

/-- The contents of an identity, in their order. -/
def contentsOf (identity : String) (b : Block) : List ContentHash :=
  (b.filter fun e => e.1 = identity).map Prod.snd

theorem contentsOf_cons (i : String) (e : NamedContent) (b : Block) :
    contentsOf i (e :: b) = if e.1 = i then e.2 :: contentsOf i b else contentsOf i b := by
  unfold contentsOf
  by_cases h : e.1 = i <;> simp [h]

/-- Entries with the same identities are told apart by the contents of an identity. -/
theorem eq_of_contentsOf_eq : ∀ {b c : Block}, b.map Prod.fst = c.map Prod.fst →
    (∀ i, contentsOf i b = contentsOf i c) → b = c
  | [], [], _, _ => rfl
  | [], _ :: _, h, _ => by cases h
  | _ :: _, [], h, _ => by cases h
  | e :: b, e' :: c, h, hcontents => by
    obtain ⟨hidentity, hrest⟩ := List.cons.inj h
    have hcontent : e.2 = e'.2 := by
      have hfirst := hcontents e.1
      rw [contentsOf_cons, contentsOf_cons, if_pos rfl, if_pos hidentity.symm] at hfirst
      exact (List.cons.inj hfirst).1
    have he : e = e' := Prod.ext hidentity hcontent
    subst he
    refine congrArg (e :: ·) (eq_of_contentsOf_eq hrest fun i => ?_)
    have hi := hcontents i
    rw [contentsOf_cons, contentsOf_cons] at hi
    by_cases heq : e.1 = i
    · rw [if_pos heq, if_pos heq] at hi
      exact (List.cons.inj hi).2
    · rw [if_neg heq, if_neg heq] at hi
      exact hi

theorem count_contentsOf (i : String) (content : ContentHash) (b : Block) :
    (contentsOf i b).count content = b.count (i, content) := by
  induction b with
  | nil => rfl
  | cons e b ih =>
    rw [contentsOf_cons, List.count_cons, ← ih]
    by_cases h : e.1 = i
    · rw [if_pos h, List.count_cons]
      simp [Prod.ext_iff, h]
    · rw [if_neg h]
      simp [Prod.ext_iff, h]

/-- The contents by identity tell the entries up to their order. -/
theorem perm_of_contentsOf_eq {b c : Block} (h : ∀ i, contentsOf i b = contentsOf i c) :
    b.Perm c := by
  rw [List.perm_iff_count]
  intro ⟨i, content⟩
  rw [← count_contentsOf, ← count_contentsOf, h]

end Block

namespace Fingerprint

open FingerprintEntry (named sameRoot)

variable {f g : Fingerprint} {i : String}

/-! ## Identities -/

/-- The hashes of an identity in the order of entries. -/
def hashesOf (f : Fingerprint) (identity : String) : List ContentHash :=
  (f.entries.filter fun e => e.identity = identity).map FingerprintEntry.content

/-- The identities of both fingerprints, each once, in increasing order. -/
def identities (f g : Fingerprint) : SortedSet String :=
  .ofList ((f.entries ++ g.entries).map FingerprintEntry.identity)

/-- How an identity of `current` or `previous` changed, if it did. -/
def changeOf? (current previous : Fingerprint) (identity : String) : Option Change :=
  match current.hashesOf identity, previous.hashesOf identity with
  | _, [] => some ⟨.added, identity⟩
  | [], _ => some ⟨.removed, identity⟩
  | now, before => if now = before then none else some ⟨.modified, identity⟩

theorem hashesOf_eq (f : Fingerprint) (i : String) :
    f.hashesOf i = Block.contentsOf i (f.entries.map named) := by
  unfold hashesOf Block.contentsOf
  rw [List.filter_map, List.map_map]
  rfl

theorem hashesOf_ne_nil_iff : f.hashesOf i ≠ [] ↔ i ∈ f.entries.map FingerprintEntry.identity := by
  unfold hashesOf
  simp [List.filter_eq_nil_iff]

theorem mem_identities : i ∈ (identities f g).toList ↔ f.hashesOf i ≠ [] ∨ g.hashesOf i ≠ [] := by
  unfold identities
  rw [SortedSet.mem_ofList, List.map_append, List.mem_append, hashesOf_ne_nil_iff,
    hashesOf_ne_nil_iff]

theorem changeOf?_eq_none_iff :
    changeOf? f g i = none ↔ f.hashesOf i = g.hashesOf i ∧ g.hashesOf i ≠ [] := by
  unfold changeOf?
  cases hf : f.hashesOf i <;> cases hg : g.hashesOf i <;> simp

theorem identity_of_changeOf? {c : Change} (h : changeOf? f g i = some c) : c.identity = i := by
  unfold changeOf? at h
  split at h
  · cases h; rfl
  · cases h; rfl
  · split at h
    · cases h
    · cases h; rfl

theorem changeOf?_eq_added_iff : changeOf? f g i = some ⟨.added, i⟩ ↔ g.hashesOf i = [] := by
  unfold changeOf?
  cases hf : f.hashesOf i <;> cases hg : g.hashesOf i <;> simp

theorem changeOf?_eq_removed_iff :
    changeOf? f g i = some ⟨.removed, i⟩ ↔ f.hashesOf i = [] ∧ g.hashesOf i ≠ [] := by
  unfold changeOf?
  cases hf : f.hashesOf i <;> cases hg : g.hashesOf i <;> simp

theorem changeOf?_eq_modified_iff : changeOf? f g i = some ⟨.modified, i⟩ ↔
    f.hashesOf i ≠ [] ∧ g.hashesOf i ≠ [] ∧ f.hashesOf i ≠ g.hashesOf i := by
  unfold changeOf?
  cases hf : f.hashesOf i <;> cases hg : g.hashesOf i <;> simp

/-! ## Groups -/

theorem find?_put (s : SortedBy HashGroup.identity) (e : FingerprintEntry) (i : String) :
    (HashGroup.put s e).find? i = if e.identity = i then
      some (.mk i ((s.find? i).elim [] HashGroup.hashes ++ [e.content])) else s.find? i := by
  unfold HashGroup.put
  rw [SortedBy.find?_insert]
  by_cases h : e.identity = i
  · rw [if_pos h, if_pos h, h]
  · rw [if_neg h, if_neg h]

theorem find?_foldl_put (es : List FingerprintEntry) (s : SortedBy HashGroup.identity)
    (i : String) : (es.foldl HashGroup.put s).find? i =
      match (es.filter fun e => e.identity = i).map FingerprintEntry.content with
      | [] => s.find? i
      | cs => some (.mk i ((s.find? i).elim [] HashGroup.hashes ++ cs)) := by
  induction es generalizing s with
  | nil => rfl
  | cons e es ih =>
    rw [List.foldl_cons, ih, find?_put]
    by_cases h : e.identity = i
    · rw [if_pos h, List.filter_cons_of_pos (by simpa using h), List.map_cons]
      cases (es.filter fun e => e.identity = i).map FingerprintEntry.content <;> simp
    · rw [if_neg h, List.filter_cons_of_neg (by simpa using h)]

/-- **The group of an identity has its hashes**, and an identity without hashes has no group. -/
theorem find?_groups (f : Fingerprint) (i : String) :
    f.groups.find? i = if f.hashesOf i = [] then none else some (.mk i (f.hashesOf i)) := by
  have hfold := find?_foldl_put f.entries .empty i
  have hempty : (SortedBy.empty : SortedBy HashGroup.identity).find? i = none := rfl
  rw [hempty] at hfold
  unfold groups
  rw [hfold]
  show (match f.hashesOf i with | [] => none | cs => some (HashGroup.mk i ([] ++ cs))) = _
  cases f.hashesOf i <;> rfl

theorem mem_groups {x : HashGroup} :
    x ∈ f.groups.toList ↔ ∃ i, f.hashesOf i ≠ [] ∧ x = ⟨i, f.hashesOf i⟩ := by
  have hfind : x ∈ f.groups.toList ↔ f.groups.find? x.identity = some x := by
    rw [SortedBy.find?_eq_some_iff, and_iff_left rfl]
  rw [hfind, find?_groups, Option.ite_none_left_eq_some]
  constructor
  · rintro ⟨hne, heq⟩
    exact ⟨x.identity, hne, (Option.some.inj heq).symm⟩
  · rintro ⟨i, hne, rfl⟩
    exact ⟨hne, rfl⟩

theorem contains_groups_eq_false_iff : f.groups.contains i = false ↔ f.hashesOf i = [] := by
  rw [← Bool.not_eq_true, not_iff_comm, SortedBy.contains_iff]
  constructor
  · intro hne
    exact ⟨⟨i, f.hashesOf i⟩, mem_groups.mpr ⟨i, hne, rfl⟩, rfl⟩
  · rintro ⟨x, hx, rfl⟩
    obtain ⟨i, hne, rfl⟩ := mem_groups.mp hx
    exact hne

/-! ## Comparing -/

/-- The change of a group is that of its identity. -/
theorem changeOfGroup?_groups (h : f.hashesOf i ≠ []) :
    changeOfGroup? g.groups ⟨i, f.hashesOf i⟩ = changeOf? f g i := by
  unfold changeOfGroup? changeOf?
  rw [find?_groups]
  cases hf : f.hashesOf i with
  | nil => exact absurd hf h
  | cons c cs =>
    cases hg : g.hashesOf i with
    | nil => rfl
    | cons d ds =>
      show (if d :: ds = c :: cs then none else some (Change.mk .modified i)) =
        if c :: cs = d :: ds then none else some ⟨.modified, i⟩
      exact if_congr eq_comm rfl rfl

/-- The changes of all identities, in increasing order. -/
def changesOf (f g : Fingerprint) : SortedBy Change.identity where
  toList := (identities f g).toList.filterMap (changeOf? f g)
  sorted := by
    refine List.pairwise_filterMap.mpr ((identities f g).sorted.imp ?_)
    intro i j hlt c hc d hd
    rw [identity_of_changeOf? hc, identity_of_changeOf? hd]
    exact hlt

/-- What both passes find together. -/
theorem mem_changesInPasses {c : Change} :
    c ∈ changesInPasses f g ↔ c ∈ (changesOf f g).toList := by
  unfold changesInPasses changesOf
  rw [List.mem_append, List.mem_filterMap, List.mem_map, List.mem_filterMap]
  constructor
  · rintro (⟨x, hx, hc⟩ | ⟨x, hx, rfl⟩)
    · obtain ⟨i, hne, rfl⟩ := mem_groups.mp hx
      rw [changeOfGroup?_groups hne] at hc
      exact ⟨i, mem_identities.mpr (.inl hne), hc⟩
    · obtain ⟨hx, hgone⟩ := List.mem_filter.mp hx
      obtain ⟨i, hne, rfl⟩ := mem_groups.mp hx
      rw [Bool.not_eq_true', contains_groups_eq_false_iff] at hgone
      exact ⟨i, mem_identities.mpr (.inr hne), changeOf?_eq_removed_iff.mpr ⟨hgone, hne⟩⟩
  · rintro ⟨i, hi, hc⟩
    by_cases hgone : f.hashesOf i = []
    · have hne : g.hashesOf i ≠ [] := (mem_identities.mp hi).resolve_left (not_not.mpr hgone)
      rw [changeOf?_eq_removed_iff.mpr ⟨hgone, hne⟩] at hc
      refine .inr ⟨⟨i, g.hashesOf i⟩, List.mem_filter.mpr ⟨mem_groups.mpr ⟨i, hne, rfl⟩, ?_⟩,
        Option.some.inj hc⟩
      rw [Bool.not_eq_true', contains_groups_eq_false_iff]
      exact hgone
    · rw [← changeOfGroup?_groups hgone] at hc
      exact .inl ⟨⟨i, f.hashesOf i⟩, mem_groups.mpr ⟨i, hgone, rfl⟩, hc⟩

/-- Neither pass finds a change twice, and what the second one finds is not in the first. -/
theorem nodup_changesInPasses (f g : Fingerprint) : (changesInPasses f g).Nodup := by
  have hidentity {x : HashGroup} {c : Change} (h : changeOfGroup? g.groups x = some c) :
      c.identity = x.identity := by
    unfold changeOfGroup? at h
    split at h
    · cases h; rfl
    · split at h
      · cases h
      · cases h; rfl
  refine List.nodup_append.mpr ⟨?_, ?_, ?_⟩
  · refine List.pairwise_filterMap.mpr (f.groups.sorted.imp ?_)
    rintro x y hlt c hc d hd rfl
    exact SortedBy.key_ne_of_lt hlt ((hidentity hc).symm.trans (hidentity hd))
  · refine List.pairwise_map.mpr ((g.groups.sorted.filter _).imp ?_)
    intro x y hlt heq
    exact SortedBy.key_ne_of_lt hlt (congrArg Change.identity heq)
  · rintro c hc d hd rfl
    obtain ⟨x, hx, hc⟩ := List.mem_filterMap.mp hc
    obtain ⟨y, hy, rfl⟩ := List.mem_map.mp hd
    have hgone := (List.mem_filter.mp hy).2
    rw [Bool.not_eq_true', ← Bool.not_eq_true] at hgone
    exact hgone (SortedBy.contains_iff.mpr ⟨x, hx, (hidentity hc).symm⟩)

/-- **Two passes and a sort come to one look at every identity.** -/
theorem changesSince_eq (f g : Fingerprint) : f.changesSince g = (changesOf f g).toList := by
  have hperm : (changesInPasses f g).Perm (changesOf f g).toList :=
    (List.perm_ext_iff_of_nodup (nodup_changesInPasses f g) (changesOf f g).nodup_toList).mpr
      fun _ => mem_changesInPasses
  refine (@mergeSort_eq_of_perm_of_inj _ (compareOn Change.identity) _ _ _ hperm ?_).trans ?_
  · intro c hc d hd heq
    exact SortedBy.eq_of_key_eq (mem_changesInPasses.mp hc) (mem_changesInPasses.mp hd)
      (Std.LawfulEqCmp.eq_of_compare heq)
  · exact List.mergeSort_of_pairwise ((changesOf f g).sorted.imp Ordering.isLE_of_eq_lt)

/-- **Nothing changed when every identity has the same contents.** -/
theorem changesSince_eq_nil_iff :
    f.changesSince g = [] ↔ ∀ i, f.hashesOf i = g.hashesOf i := by
  rw [changesSince_eq, changesOf, List.filterMap_eq_nil_iff]
  constructor
  · intro h i
    by_cases hi : i ∈ (identities f g).toList
    · exact (changeOf?_eq_none_iff.mp (h i hi)).1
    · -- neither fingerprint has the identity
      rw [mem_identities, not_or, not_not, not_not] at hi
      rw [hi.1, hi.2]
  · intro h i hi
    rw [mem_identities, h i, or_self] at hi
    exact changeOf?_eq_none_iff.mpr ⟨h i, hi⟩

/-! ## Blocks -/

/-- The identities of the entries, root by root. -/
def layout (f : Fingerprint) : List (List String) := f.blocks.map (List.map Prod.fst)

theorem flatten_blocks (f : Fingerprint) : f.blocks.flatten = f.entries.map named := by
  unfold blocks
  rw [← List.map_flatten, List.flatten_splitBy]

theorem perm_flatten_blocks (h : ∀ i, f.hashesOf i = g.hashesOf i) :
    f.blocks.flatten.Perm g.blocks.flatten := by
  refine Block.perm_of_contentsOf_eq fun i => ?_
  rw [flatten_blocks, flatten_blocks, ← hashesOf_eq, ← hashesOf_eq, h]

/-- **The layout and the contents by identity give back the blocks.** -/
theorem blocks_eq_of_hashesOf_eq (hlayout : f.layout = g.layout)
    (h : ∀ i, f.hashesOf i = g.hashesOf i) : f.blocks = g.blocks := by
  unfold layout at hlayout
  have hlengths : f.blocks.map List.length = g.blocks.map List.length := by
    have := congrArg (List.map List.length) hlayout
    simpa [List.map_map, Function.comp_def] using this
  refine List.eq_iff_flatten_eq.mpr ⟨Block.eq_of_contentsOf_eq ?_ fun i => ?_, hlengths⟩
  · rw [List.map_flatten, List.map_flatten, hlayout]
  · rw [flatten_blocks, flatten_blocks, ← hashesOf_eq, ← hashesOf_eq, h]

end Fingerprint

namespace Fingerprinter

/-! ## Fingerprints that are made -/

variable {f : Fingerprinter} {s t : Snapshot} {earlier earlier' : List Run} {a b : Fingerprint}

/-- A fingerprinter returns fingerprints of its own normalizer only, hint or not. -/
theorem normalizer_of_chained (h : chained ((f, s) :: earlier) = some a) :
    a.normalizer = f.normalizer := by
  rw [chained, Option.some.injEq] at h
  subst h
  cases hint : chained earlier with
  | none => rfl
  | some p =>
    rw [fingerprint]
    split
    · next hreuse =>
      unfold canReuse at hreuse
      rw [Bool.and_eq_true, Bool.and_eq_true] at hreuse
      exact of_decide_eq_true hreuse.1.1
    · rfl

theorem block_eq_of_perm {g : Fingerprinter} {l m : Location} (h : (f.block l).Perm (g.block m)) :
    f.block l = g.block m :=
  block_eq_iff.mpr ((f.perm_block l).symm.trans (h.trans (g.perm_block m)))

/-- **A single block is determined by its entries up to order**, since it is sorted. -/
theorem blocks_eq_of_perm {g : Fingerprinter} (hs : (f.blocks s).length ≤ 1)
    (ht : (g.blocks t).length ≤ 1) (h : (f.blocks s).flatten.Perm (g.blocks t).flatten) :
    f.blocks s = g.blocks t := by
  have hmem {f : Fingerprinter} {s : Snapshot} {c : Block} (hc : c ∈ f.blocks s) :
      c ≠ [] ∧ ∃ l, f.block l = c := by
    obtain ⟨hc, hne⟩ := List.mem_filter.mp hc
    obtain ⟨l, -, hl⟩ := List.mem_map.mp hc
    exact ⟨by simpa using hne, l, hl⟩
  match hbs : f.blocks s, hbt : g.blocks t, hs, ht with
  | [], [], _, _ => rfl
  | [c], [], _, _ =>
    rw [hbs, hbt] at h
    exact absurd (by simpa using h) (hmem (hbs ▸ List.mem_cons_self)).1
  | [], [c], _, _ =>
    rw [hbs, hbt] at h
    exact absurd (by simpa using h.symm) (hmem (hbt ▸ List.mem_cons_self)).1
  | [c], [d], _, _ =>
    obtain ⟨-, l, rfl⟩ := hmem (hbs ▸ List.mem_cons_self : c ∈ f.blocks s)
    obtain ⟨-, m, rfl⟩ := hmem (hbt ▸ List.mem_cons_self : d ∈ g.blocks t)
    rw [hbs, hbt] at h
    rw [block_eq_of_perm (by simpa using h)]

/-! ## Changed hashes -/

/--
**A changed hash is explained unless entries only moved between roots.** Of two fingerprints that
one fingerprinter made, of whatever snapshots and with whatever hints: if their hashes differ, no
identity was added, removed or modified exactly when every identity has the same contents in the
same order in both, while the identities are spread over the roots in another way. So there is
always a change where one root at most has entries.
-/
theorem changesSince_eq_nil_iff_of_hash_ne (ha : chained ((f, s) :: earlier) = some a)
    (hb : chained ((f, t) :: earlier') = some b) (hne : a.hash ≠ b.hash) :
    (b.changesSince a = [] ↔ a.layout ≠ b.layout ∧ ∀ i, b.hashesOf i = a.hashesOf i) ∧
      (a.blocks.length ≤ 1 → b.blocks.length ≤ 1 → b.changesSince a ≠ []) := by
  have hnormalizer : a.normalizer = b.normalizer :=
    (normalizer_of_chained ha).trans (normalizer_of_chained hb).symm
  have hblocks : a.blocks ≠ b.blocks :=
    fun h => hne (Fingerprint.hash_eq_of_blocks_eq hnormalizer h)
  constructor
  · rw [Fingerprint.changesSince_eq_nil_iff]
    constructor
    · intro h
      exact ⟨fun hlayout => hblocks
        (Fingerprint.blocks_eq_of_hashesOf_eq hlayout fun i => (h i).symm), h⟩
    · exact fun h => h.2
  · intro hlena hlenb hnil
    have h := Fingerprint.changesSince_eq_nil_iff.mp hnil
    have hperm := Fingerprint.perm_flatten_blocks fun i => (h i).symm
    obtain ⟨g, u, -, rfl⟩ := exists_fresh_of_chained ha
    obtain ⟨g', u', -, rfl⟩ := exists_fresh_of_chained hb
    rw [blocks_fresh, blocks_fresh] at hperm hblocks
    rw [blocks_fresh] at hlena hlenb
    exact hblocks (blocks_eq_of_perm hlena hlenb hperm)

/-- The two separate files again, the second one with another content. -/
def editedFiles : Snapshot := ⟨[.file ⟨"/a"⟩ ⟨"1"⟩, .missing ⟨"/m"⟩, .file ⟨"/b"⟩ ⟨"3"⟩]⟩

theorem entries_editedFiles : ignoredPath.entries editedFiles =
    [⟨0, "", ⟨"1"⟩⟩, ⟨2, "", ⟨"3"⟩⟩] := by
  simp [entries, editedFiles, numberedEntries, rootEntries, Location.visit, contentEntry]

/-- Both files have one identity, and the edit of the second one is seen. -/
theorem changesSince_ne_nil_editedFiles :
    chained [(ignoredPath, separateFiles)] = some (ignoredPath.fresh separateFiles) ∧
      chained [(ignoredPath, editedFiles)] = some (ignoredPath.fresh editedFiles) ∧
      (ignoredPath.fresh separateFiles).hash ≠ (ignoredPath.fresh editedFiles).hash ∧
      (ignoredPath.fresh separateFiles).layout = (ignoredPath.fresh editedFiles).layout ∧
      (ignoredPath.fresh editedFiles).changesSince (ignoredPath.fresh separateFiles) ≠ [] := by
  have hseparate : chained [(ignoredPath, separateFiles)] =
      some (ignoredPath.fresh separateFiles) := rfl
  have hedited : chained [(ignoredPath, editedFiles)] = some (ignoredPath.fresh editedFiles) := rfl
  have hne : (ignoredPath.fresh separateFiles).hash ≠ (ignoredPath.fresh editedFiles).hash := by
    simp only [Fingerprint.hash, fresh, entries_separateFiles, entries_editedFiles]
    decide +kernel
  have hlayout : (ignoredPath.fresh separateFiles).layout =
      (ignoredPath.fresh editedFiles).layout := by
    simp only [Fingerprint.layout, Fingerprint.blocks, fresh, entries_separateFiles,
      entries_editedFiles]
    decide
  refine ⟨hseparate, hedited, hne, hlayout, fun hnil => ?_⟩
  exact ((changesSince_eq_nil_iff_of_hash_ne hseparate hedited hne).1.mp hnil).1 hlayout

/-- The files move into one directory: the hash changes, and nothing else does. -/
theorem changesSince_eq_nil_filesOfDirectory :
    (ignoredPath.fingerprint separateFiles none).hash ≠
        (ignoredPath.fingerprint filesOfDirectory none).hash ∧
      (ignoredPath.fingerprint filesOfDirectory none).changesSince
        (ignoredPath.fingerprint separateFiles none) = [] := by
  constructor
  · simp only [Fingerprint.hash, fingerprint, fresh, entries_separateFiles,
      entries_filesOfDirectory]
    decide +kernel
  · simp only [fingerprint, fresh, entries_separateFiles, entries_filesOfDirectory,
      Fingerprint.changesSince_eq]
    decide

end Fingerprinter

end BuildInputs

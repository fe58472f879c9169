import BuildInputs.Proofs.Fingerprint.Changes
import BuildInputs.Proofs.Text.ByteOrder

/-!
# Changes are an exact difference

What changed between two fingerprints is told by identity: an identity is added if only the later
fingerprint lists it, removed if only the earlier one does, and modified if both list it with other
contents. Nothing else is reported, and every identity at most once.

1. A change that is reported is that of its identity (`mem_changesSince_iff`).
2. Identities come in increasing order, and both fingerprints have the same ones whichever of them
   is the later one (`identities_comm`), so the two directions correspond change by change
   (`changesSince_swap`).
3. The contents of an identity are those that the roots contribute, one root after the other
   (`hashesOf_fresh`), so fingerprints with the same blocks have no changes.
-/

namespace BuildInputs

open Digest

/-- What a change is in the other direction. -/
def ChangeKind.swap : ChangeKind → ChangeKind
  | added => removed
  | removed => added
  | modified => modified

def Change.swap (c : Change) : Change := ⟨c.kind.swap, c.identity⟩

/-- The contents in blocks, one after the other. -/
theorem Block.contentsOf_flatten (i : String) (bs : List Block) :
    contentsOf i bs.flatten = bs.flatMap (contentsOf i) := by
  unfold contentsOf
  rw [List.filter_flatten, List.map_flatten, List.map_map, List.flatMap_def]
  rfl

namespace Fingerprint

/-- The fingerprint has an entry with the identity. -/
def HasIdentity (f : Fingerprint) (i : String) : Prop := ∃ e ∈ f.entries, e.identity = i

/-- The changes are the difference of two fingerprints, in increasing order of the identities. -/
structure IsDifference (current previous : Fingerprint) (changes : List Change) : Prop where
  increasing : changes.Pairwise fun a b => utf8 a.identity < utf8 b.identity
  added (i : String) : ⟨.added, i⟩ ∈ changes ↔ current.HasIdentity i ∧ ¬ previous.HasIdentity i
  removed (i : String) : ⟨.removed, i⟩ ∈ changes ↔ previous.HasIdentity i ∧ ¬ current.HasIdentity i
  modified (i : String) : ⟨.modified, i⟩ ∈ changes ↔
    current.HasIdentity i ∧ previous.HasIdentity i ∧ current.hashesOf i ≠ previous.hashesOf i

variable {f g : Fingerprint} {i : String} {k : ChangeKind} {c : Change}

/-! ## Single changes -/

theorem hasIdentity_iff : f.HasIdentity i ↔ f.hashesOf i ≠ [] := by
  rw [hashesOf_ne_nil_iff, List.mem_map]
  rfl

theorem mem_changesSince_iff : ⟨k, i⟩ ∈ f.changesSince g ↔
    (f.HasIdentity i ∨ g.HasIdentity i) ∧ changeOf? f g i = some ⟨k, i⟩ := by
  rw [changesSince_eq, changesOf, List.mem_filterMap, hasIdentity_iff, hasIdentity_iff,
    ← mem_identities]
  constructor
  · rintro ⟨j, hj, hc⟩
    obtain rfl : i = j := identity_of_changeOf? hc
    exact ⟨hj, hc⟩
  · rintro ⟨hi, hc⟩
    exact ⟨i, hi, hc⟩

theorem changeOf?_swap (h : f.hashesOf i ≠ [] ∨ g.hashesOf i ≠ []) :
    changeOf? g f i = (changeOf? f g i).map Change.swap := by
  unfold changeOf?
  match hf : f.hashesOf i, hg : g.hashesOf i with
  | [], [] => simp [hf, hg] at h
  | [], _ :: _ => rfl
  | _ :: _, [] => rfl
  | x :: xs, y :: ys =>
    show (if y :: ys = x :: xs then none else some ⟨.modified, i⟩) =
      (if x :: xs = y :: ys then none else some ⟨.modified, i⟩ : Option Change).map Change.swap
    by_cases heq : x :: xs = y :: ys
    · rw [if_pos heq, if_pos heq.symm]
      rfl
    · rw [if_neg heq, if_neg (Ne.symm heq)]
      rfl

/-! ## All changes -/

theorem identities_comm : identities f g = identities g f :=
  SortedBy.ext_mem fun i => by rw [mem_identities, mem_identities, or_comm]

/-- **Changes are exactly the differences.** -/
theorem isDifference_changesSince (f g : Fingerprint) : IsDifference f g (f.changesSince g) where
  increasing := by
    rw [changesSince_eq]
    exact (changesOf f g).sorted.imp utf8_lt_utf8
  added i := by
    rw [mem_changesSince_iff, changeOf?_eq_added_iff, hasIdentity_iff, hasIdentity_iff]
    tauto
  removed i := by
    rw [mem_changesSince_iff, changeOf?_eq_removed_iff, hasIdentity_iff, hasIdentity_iff]
    tauto
  modified i := by
    rw [mem_changesSince_iff, changeOf?_eq_modified_iff, hasIdentity_iff, hasIdentity_iff]
    tauto

/-- **In the other direction what was added is removed**, and nothing else changes. -/
theorem changesSince_swap (f g : Fingerprint) :
    g.changesSince f = (f.changesSince g).map Change.swap := by
  rw [changesSince_eq, changesSince_eq]
  show (identities g f).toList.filterMap (changeOf? g f) =
    ((identities f g).toList.filterMap (changeOf? f g)).map Change.swap
  rw [identities_comm, List.map_filterMap]
  exact List.filterMap_congr fun i hi => changeOf?_swap (mem_identities.mp hi)

theorem changesSince_eq_nil_of_same (h : f.same g = true) : f.changesSince g = [] := by
  unfold same at h
  rw [Bool.and_eq_true, decide_eq_true_eq] at h
  refine changesSince_eq_nil_iff.mpr fun i => ?_
  unfold hashesOf
  rw [h.2]

theorem changesSince_eq_nil_of_blocks_eq (h : f.blocks = g.blocks) : f.changesSince g = [] := by
  refine changesSince_eq_nil_iff.mpr fun i => ?_
  rw [hashesOf_eq, hashesOf_eq, ← flatten_blocks, ← flatten_blocks, h]

end Fingerprint

namespace Fingerprinter

open Fingerprint (HasIdentity IsDifference hashesOf_eq flatten_blocks)

/-! ## Fingerprints that are made -/

theorem hashesOf_fresh (f : Fingerprinter) (s : Snapshot) (i : String) :
    (f.fresh s).hashesOf i = s.roots.flatMap fun root => Block.contentsOf i (f.block root) := by
  rw [hashesOf_eq, ← flatten_blocks, blocks_fresh]
  unfold blocks
  rw [List.flatten_filter_not_isEmpty, Block.contentsOf_flatten, List.flatMap_map]

/--
The fingerprint was made by one of the runs. The contents of an identity are what the roots of the
snapshot contribute under it, in the order of roots.
-/
def InRootOrder (runs : List Run) (p : Fingerprint) : Prop :=
  ∃ f s, (f, s) ∈ runs ∧ p = f.fresh s ∧
    ∀ i, p.hashesOf i = s.roots.flatMap fun root => Block.contentsOf i (f.block root)

theorem inRootOrder_of_chained {runs : List Run} {p : Fingerprint} (h : chained runs = some p) :
    InRootOrder runs p := by
  obtain ⟨f, s, hmem, rfl⟩ := exists_fresh_of_chained h
  exact ⟨f, s, hmem, rfl, f.hashesOf_fresh s⟩

/--
**Changes are an exact difference.** Of two fingerprints that fingerprinters made, with whatever
hints, the identities are reported that only one of them has or that both have with other contents,
each once and in increasing order of bytes. Contents are compared in the order of roots, and how
often they occur counts. In the other direction the same identities are reported, removed where they
were added. Equal fingerprints have no changes, nor have those of one normalizer with one hash.
-/
theorem changesSince_exact {runs runs' : List Run} {current previous : Fingerprint}
    (hcurrent : chained runs = some current) (hprevious : chained runs' = some previous) :
    IsDifference current previous (current.changesSince previous) ∧
      InRootOrder runs current ∧ InRootOrder runs' previous ∧
      previous.changesSince current = (current.changesSince previous).map Change.swap ∧
      (current.same previous = true → current.changesSince previous = []) ∧
      (current.normalizer = previous.normalizer → current.hash = previous.hash →
        CollisionFree [current.summaryStream, previous.summaryStream] →
        (∀ t ∈ current.texts ++ previous.texts, Framable (utf8 t)) →
        current.changesSince previous = []) := by
  refine ⟨Fingerprint.isDifference_changesSince _ _, inRootOrder_of_chained hcurrent,
    inRootOrder_of_chained hprevious, Fingerprint.changesSince_swap _ _,
    Fingerprint.changesSince_eq_nil_of_same, fun _ hhash hc htexts => ?_⟩
  have hblocks := (Fingerprint.hash_eq_iff hc (fun t ht => htexts t (List.mem_append_left _ ht))
    fun t ht => htexts t (List.mem_append_right _ ht)).mp hhash
  exact Fingerprint.changesSince_eq_nil_of_blocks_eq hblocks.2

/-- Two files; later the first one is gone, the second one is edited, and there is a third one. -/
def earlierFiles : Snapshot := ⟨[.file ⟨"/a"⟩ ⟨"1"⟩, .file ⟨"/b"⟩ ⟨"2"⟩]⟩

def laterFiles : Snapshot := ⟨[.file ⟨"/b"⟩ ⟨"3"⟩, .file ⟨"/c"⟩ ⟨"4"⟩]⟩

theorem entries_earlierFiles :
    nameOnly.entries earlierFiles = [⟨0, "a", ⟨"1"⟩⟩, ⟨1, "b", ⟨"2"⟩⟩] := by
  have hnames : (Path.mk "/a").name = "a" ∧ (Path.mk "/b").name = "b" := by decide
  simp [entries, earlierFiles, numberedEntries, rootEntries, Location.visit, nameEntry,
    Location.name, Location.path, standInHash, hnames]

theorem entries_laterFiles : nameOnly.entries laterFiles = [⟨0, "b", ⟨"3"⟩⟩, ⟨1, "c", ⟨"4"⟩⟩] := by
  have hnames : (Path.mk "/b").name = "b" ∧ (Path.mk "/c").name = "c" := by decide
  simp [entries, laterFiles, numberedEntries, rootEntries, Location.visit, nameEntry,
    Location.name, Location.path, standInHash, hnames]

/-- One change of every kind. -/
theorem changesSince_exact_laterFiles :
    chained [(nameOnly, laterFiles)] = some (nameOnly.fresh laterFiles) ∧
      chained [(nameOnly, earlierFiles)] = some (nameOnly.fresh earlierFiles) ∧
      ⟨.removed, "a"⟩ ∈ (nameOnly.fresh laterFiles).changesSince (nameOnly.fresh earlierFiles) ∧
      ⟨.modified, "b"⟩ ∈ (nameOnly.fresh laterFiles).changesSince (nameOnly.fresh earlierFiles) ∧
      ⟨.added, "c"⟩ ∈ (nameOnly.fresh laterFiles).changesSince (nameOnly.fresh earlierFiles) := by
  have hlater : chained [(nameOnly, laterFiles)] = some (nameOnly.fresh laterFiles) := rfl
  have hearlier : chained [(nameOnly, earlierFiles)] = some (nameOnly.fresh earlierFiles) := rfl
  have hdifference := (changesSince_exact hlater hearlier).1
  refine ⟨hlater, hearlier, (hdifference.removed _).mpr ?_, (hdifference.modified _).mpr ?_,
    (hdifference.added _).mpr ?_⟩
  all_goals
    simp [HasIdentity, Fingerprint.hashesOf, fresh, entries_earlierFiles, entries_laterFiles]

end Fingerprinter

end BuildInputs

import BuildInputs.Proofs.Fingerprint.Summary
import BuildInputs.Proofs.Snapshot.Place

/-!
# The compile class path is a view of the runtime one

What a compiler reads of a class path can be told from what the class path has at run time, so
snapshots that are the same at run time are the same for compilers. The entries of a root are told
apart by their identities alone: the relative path of a class file has its extension, that of
another file has not, and an archive has no relative path.

1. Every root contributes for compilers what is left of its entries at run time
   (`rootEntries_compileClassPath`). Below a directory this needs that no relative path is empty.
2. Leaving entries out and sorting can change places (`block_compileClassPath`).
3. Roots that have nothing left drop out, so the blocks for compilers are given by the blocks at run
   time (`blocks_compileClassPath`), whatever roots they come from.
-/

namespace BuildInputs.Fingerprinter

open Digest

variable {ignore : IgnoreList} {s t : Snapshot}

/-- An entry of an archive or of a class file. -/
def compilerReads (e : NamedContent) : Bool :=
  e.1.isEmpty || (Path.mk e.1).extension? = some "class"

/-- A relative path that is not empty is kept for compilers if its entry is one that they read. -/
theorem keptEntry_filter {keeps : String → Bool} {relative : String} {l : Location}
    (h : l.kind = .regularFile → relative ≠ "") :
    keptEntry (fun r => keeps r && isClassFile r) relative l =
      (keptEntry keeps relative l).filter compilerReads := by
  cases l with
  | file p content =>
    have hempty : relative.isEmpty = false := by
      rw [Bool.eq_false_iff, Ne, String.isEmpty_iff]
      exact h rfl
    have hreads : compilerReads (relative, content) = isClassFile relative := by
      unfold compilerReads isClassFile
      rw [hempty, Bool.false_or]
    show (if keeps relative && isClassFile relative then [(relative, content)] else []) =
      (if keeps relative then [(relative, content)] else []).filter compilerReads
    by_cases hkeeps : keeps relative = true
    · rw [hkeeps, Bool.true_and, if_pos rfl, List.filter_singleton, hreads, Bool.cond_eq_ite]
    · rw [Bool.eq_false_iff.mpr hkeeps, Bool.false_and]
      rfl
  | directory p cs => rfl
  | missing p => rfl

/-- **A root contributes for compilers what they read of its entries at run time.** -/
theorem rootEntries_compileClassPath {root : Location} (h : ∀ c ∈ root.children, c.name ≠ "") :
    (compileClassPath ignore).rootEntries root =
      ((classPath ignore).rootEntries root).filter compilerReads := by
  cases root with
  | file p content =>
    show (if ignore.ignores p.name then [] else _) =
      (if ignore.ignores p.name then [] else _).filter _
    split <;> rfl
  | directory p cs =>
    show List.flatMap _ _ = (List.flatMap _ _).filter _
    rw [List.filter_flatMap]
    refine List.flatMap_congr fun (r, m) hm => keptEntry_filter fun hfile => ?_
    rcases Location.eq_or_ne_empty_of_mem_visit h hm with rfl | hne
    · cases hfile
    · exact hne
  | missing p => rfl

theorem block_compileClassPath {root : Location} (h : ∀ c ∈ root.children, c.name ≠ "") :
    (compileClassPath ignore).block root =
      ((classPath ignore).block root).filter compilerReads := by
  unfold block
  rw [rootEntries_compileClassPath h, entryLE_eq, mergeSort_filter]

/-- What a compiler reads of blocks; a block that has nothing left drops out. -/
def compileView (bs : List Block) : List Block :=
  (bs.map (List.filter compilerReads)).filter fun b => !b.isEmpty

theorem compileView_cons (b : Block) (bs : List Block) : compileView (b :: bs) =
    if (b.filter compilerReads).isEmpty then compileView bs
    else b.filter compilerReads :: compileView bs := by
  unfold compileView
  rw [List.map_cons, List.filter_cons]
  cases b.filter compilerReads <;> rfl

/-- Blocks without entries have no part in the view. -/
theorem compileView_filter (bs : List Block) :
    compileView (bs.filter fun b => !b.isEmpty) = compileView bs := by
  induction bs with
  | nil => rfl
  | cons b bs ih =>
    cases b with
    | nil => exact ih
    | cons e b => rw [List.filter_cons_of_pos rfl, compileView_cons, compileView_cons, ih]

/-- **The blocks for compilers are a view of the blocks at run time.** -/
theorem blocks_compileClassPath (h : ∀ root ∈ s.roots, ∀ c ∈ root.children, c.name ≠ "") :
    (compileClassPath ignore).blocks s = compileView ((classPath ignore).blocks s) := by
  have hmap : s.roots.map (compileClassPath ignore).block =
      (s.roots.map (classPath ignore).block).map (List.filter compilerReads) := by
    rw [List.map_map]
    exact List.map_congr_left fun root hroot => block_compileClassPath (h root hroot)
  unfold blocks
  rw [compileView_filter, hmap]
  rfl

/--
**The compile class path never sees more than the runtime one.** If two snapshots have one hash as
runtime class paths, they have one hash as compile class paths. It is enough for this that nothing
directly in a root has an empty name.
-/
theorem hash_compileClassPath_eq_of_hash_classPath_eq
    (hnames : ∀ root ∈ s.roots ++ t.roots, ∀ c ∈ root.children, c.name ≠ "")
    (hc : CollisionFree [((classPath ignore).fresh s).summaryStream,
      ((classPath ignore).fresh t).summaryStream])
    (htexts : ∀ x ∈ ((classPath ignore).fresh s).texts ++ ((classPath ignore).fresh t).texts,
      Framable (utf8 x))
    (h : ((classPath ignore).fingerprint s none).hash =
      ((classPath ignore).fingerprint t none).hash) :
    ((compileClassPath ignore).fingerprint s none).hash =
      ((compileClassPath ignore).fingerprint t none).hash := by
  have hruntime := (hash_fingerprint_eq_iff hc htexts).mp h
  refine Fingerprint.hash_eq_of_blocks_eq rfl ?_
  show ((compileClassPath ignore).fresh s).blocks = ((compileClassPath ignore).fresh t).blocks
  rw [blocks_fresh, blocks_fresh,
    blocks_compileClassPath fun root hroot => hnames root (List.mem_append_left _ hroot),
    blocks_compileClassPath fun root hroot => hnames root (List.mem_append_right _ hroot), hruntime]

/-- An archive behind a directory with a class file and another file. -/
def compiledClasses : Snapshot :=
  ⟨[.directory ⟨"/r"⟩ [.file ⟨"/r/A.class"⟩ ⟨"1"⟩, .file ⟨"/r/x"⟩ ⟨"2"⟩], .file ⟨"/l.jar"⟩ ⟨"3"⟩]⟩

/-- The same at other places, listed in another order, behind a place where nothing is. -/
def movedClasses : Snapshot :=
  ⟨[.missing ⟨"/m"⟩, .directory ⟨"/q"⟩ [.file ⟨"/q/x"⟩ ⟨"2"⟩, .file ⟨"/q/A.class"⟩ ⟨"1"⟩],
    .file ⟨"/k.jar"⟩ ⟨"3"⟩]⟩

theorem entries_compiledClasses : (classPath .empty).entries compiledClasses =
    [⟨0, "A.class", ⟨"1"⟩⟩, ⟨0, "x", ⟨"2"⟩⟩, ⟨1, "", ⟨"3"⟩⟩] := by
  have hle : entryLE ("A.class", ⟨"1"⟩) ("x", ⟨"2"⟩) = true := by decide
  have hclass : (Path.mk "/r/A.class").name = "A.class" := by decide
  have hother : (Path.mk "/r/x").name = "x" := by decide
  simp [entries, compiledClasses, numberedEntries, rootEntries, classPathEntries, Location.visit,
    Location.visitFrom, Location.visitChildren, keptEntry, Location.childPath, Location.name,
    Location.path, IgnoreList.ignores, IgnoreList.empty, List.mergeSort, hle, hclass, hother]

theorem entries_movedClasses : (classPath .empty).entries movedClasses =
    [⟨1, "A.class", ⟨"1"⟩⟩, ⟨1, "x", ⟨"2"⟩⟩, ⟨2, "", ⟨"3"⟩⟩] := by
  have hle : entryLE ("x", ⟨"2"⟩) ("A.class", ⟨"1"⟩) = false := by decide
  have hclass : (Path.mk "/q/A.class").name = "A.class" := by decide
  have hother : (Path.mk "/q/x").name = "x" := by decide
  simp [entries, movedClasses, numberedEntries, rootEntries, classPathEntries, Location.visit,
    Location.visitFrom, Location.visitChildren, keptEntry, Location.childPath, Location.name,
    Location.path, IgnoreList.ignores, IgnoreList.empty, List.mergeSort, hle, hclass, hother]

/-- What the move changes is not seen at run time, so compilers do not see it either. -/
theorem hash_compileClassPath_eq_movedClasses :
    ((classPath .empty).fingerprint compiledClasses none).hash =
        ((classPath .empty).fingerprint movedClasses none).hash ∧
      ((compileClassPath .empty).fingerprint compiledClasses none).hash =
        ((compileClassPath .empty).fingerprint movedClasses none).hash := by
  have hnames : ∀ root ∈ compiledClasses.roots ++ movedClasses.roots,
      ∀ c ∈ root.children, c.name ≠ "" := by decide
  have hc : CollisionFree [((classPath .empty).fresh compiledClasses).summaryStream,
      ((classPath .empty).fresh movedClasses).summaryStream] := by
    simp only [Fingerprint.summaryStream, fresh, entries_compiledClasses, entries_movedClasses]
    decide +kernel
  have htexts : ∀ x ∈ ((classPath .empty).fresh compiledClasses).texts ++
      ((classPath .empty).fresh movedClasses).texts, Framable (utf8 x) := by
    simp only [Fingerprint.texts, fresh, entries_compiledClasses, entries_movedClasses]
    decide
  have hruntime : ((classPath .empty).fingerprint compiledClasses none).hash =
      ((classPath .empty).fingerprint movedClasses none).hash := by
    simp only [Fingerprint.hash, fingerprint, fresh, entries_compiledClasses,
      entries_movedClasses]
    rfl
  exact ⟨hruntime, hash_compileClassPath_eq_of_hash_classPath_eq hnames hc htexts hruntime⟩

end BuildInputs.Fingerprinter

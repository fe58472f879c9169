import BuildInputs.Fingerprint.Registry
import BuildInputs.Proofs.Except
import BuildInputs.Proofs.Fingerprint.Hint

/-!
# Ignoring files is pruning them

The patterns of a class path fingerprinter leave out files while a snapshot is visited. The same
fingerprint is made without patterns of a snapshot in which these files are gone: a root that is a
file turns into a place where nothing is, so that the other roots keep their numbers, and a file
below a directory is taken from the directory it lies in.

1. An ignore list ignores what one of its patterns matches (`ignores_eq_anyMatches`), whatever the
   calls were that built it (`extend_eq_ok_iff`).
2. A visit of what is left of a tree finds the files that are not removed, under the same relative
   paths (`flatMap_keptFrom_pruned`).
3. So a root has the same entries as what is left of it (`rootEntries_prune`).
-/

namespace BuildInputs

/-! ## Patterns -/

namespace Glob

/-- Whether one of the patterns denotes a glob that matches the text. -/
def anyMatches (patterns : List String) (text : String) : Bool :=
  patterns.any fun p => (parse p).toOption.any (·.isMatch text)

theorem parseAll_cons_eq_ok {p : String} {ps : List String} {globs : List Glob}
    (h : parseAll (p :: ps) = .ok globs) :
    ∃ g gs, globs = g :: gs ∧ parse p = .ok g ∧ parseAll ps = .ok gs := by
  unfold parseAll at h
  obtain ⟨g, hg, h⟩ := bind_eq_ok.mp h
  obtain ⟨gs, hgs, h⟩ := bind_eq_ok.mp h
  exact ⟨g, gs, (Except.ok.inj h).symm, mapError_eq_ok_iff.mp hg, hgs⟩

theorem exists_parseAll_of_append {ps qs : List String} {globs : List Glob}
    (h : parseAll (ps ++ qs) = .ok globs) : ∃ gs, parseAll ps = .ok gs := by
  induction ps generalizing globs with
  | nil => exact ⟨[], rfl⟩
  | cons p ps ih =>
    obtain ⟨g, _, -, hg, hrest⟩ := parseAll_cons_eq_ok h
    obtain ⟨gs, hgs⟩ := ih hrest
    refine ⟨g :: gs, ?_⟩
    unfold parseAll
    rw [hg, hgs]
    rfl

theorem any_isMatch_eq_anyMatches {ps : List String} {globs : List Glob}
    (h : parseAll ps = .ok globs) (text : String) :
    globs.any (·.isMatch text) = anyMatches ps text := by
  induction ps generalizing globs with
  | nil => cases h; rfl
  | cons p ps ih =>
    obtain ⟨g, gs, rfl, hg, hgs⟩ := parseAll_cons_eq_ok h
    unfold anyMatches
    rw [List.any_cons, List.any_cons, ih hgs, hg]
    rfl

end Glob

namespace IgnoreList

/-- **An ignore list ignores what one of its patterns matches.** -/
theorem ignores_eq_anyMatches (l : IgnoreList) : l.ignores = Glob.anyMatches l.patterns :=
  funext fun text => Glob.any_isMatch_eq_anyMatches l.parsed text

/-- Patterns can be added if all of them, the old ones and the new ones, are well formed. -/
theorem extend_eq_ok_iff {l m : IgnoreList} {ps : List String} :
    l.extend ps = .ok m ↔ m.patterns = l.patterns ++ ps := by
  unfold extend
  constructor
  · intro h
    split at h
    · cases h; rfl
    · cases h
  · intro h
    split
    · exact congrArg Except.ok (eq_of_patterns_eq h.symm)
    · next herror =>
      have hparsed := m.parsed
      rw [h, herror] at hparsed
      cases hparsed

/-- **Patterns that are added one after the other are all added, in their order.** -/
theorem foldlM_extend_eq_ok_iff {l m : IgnoreList} {calls : List (List String)} :
    calls.foldlM (fun l ps => (l.extend ps).mapError FingerprintError.invalidIgnorePattern) l =
      .ok m ↔ m.patterns = l.patterns ++ calls.flatten := by
  induction calls generalizing l with
  | nil =>
    rw [List.flatten_nil, List.append_nil]
    exact ⟨fun h => by cases h; rfl, fun h => congrArg Except.ok (eq_of_patterns_eq h.symm)⟩
  | cons ps calls ih =>
    rw [List.foldlM_cons, bind_eq_ok, List.flatten_cons, ← List.append_assoc]
    constructor
    · rintro ⟨k, hk, hm⟩
      rw [ih.mp hm, extend_eq_ok_iff.mp (mapError_eq_ok_iff.mp hk)]
    · intro h
      -- what is added first is well formed, as a part of the whole
      have hparsed := m.parsed
      rw [h] at hparsed
      obtain ⟨globs, hglobs⟩ := Glob.exists_parseAll_of_append hparsed
      refine ⟨⟨l.patterns ++ ps, globs, hglobs⟩, ?_, ih.mpr h⟩
      exact mapError_eq_ok_iff.mpr (extend_eq_ok_iff.mpr rfl)

end IgnoreList

/-! ## What is left of a tree -/

namespace Location

mutual

/-- What is left of a location that is found under a relative path: a removed file is gone. -/
def pruned? (removes : String → Bool) (relative : String) : Location → Option Location
  | file p content => if removes relative then none else some (file p content)
  | directory p cs => some (directory p (prunedChildren removes relative cs))
  | missing p => some (missing p)

/-- What is left of the children of a directory that is found under a relative path. -/
def prunedChildren (removes : String → Bool) (relative : String) : List Location → List Location
  | [] => []
  | c :: cs =>
    (pruned? removes (childPath relative c.name) c).toList ++ prunedChildren removes relative cs

end

/--
A root without the files that are removed. They are told by their relative paths below a directory.
A root that is a file is told by its name, and nothing is at its place when it is removed.
-/
def prune (removes : String → Bool) : Location → Location
  | file p content => if removes p.name then missing p else file p content
  | directory p cs => directory p (prunedChildren removes "" cs)
  | missing p => missing p

variable {removes : String → Bool}

theorem name_of_mem_pruned? {relative : String} {l m : Location}
    (h : m ∈ (pruned? removes relative l).toList) : m.name = l.name := by
  cases l with
  | file p content =>
    rw [pruned?] at h
    split at h
    · cases h
    · rw [List.mem_singleton.mp h]
  | directory p cs =>
    rw [pruned?] at h
    rw [List.mem_singleton.mp h]
    rfl
  | missing p =>
    rw [pruned?] at h
    rw [List.mem_singleton.mp h]

theorem prunedChildren_eq_flatMap (removes : String → Bool) (relative : String)
    (cs : List Location) : prunedChildren removes relative cs =
      cs.flatMap fun c => (pruned? removes (childPath relative c.name) c).toList := by
  induction cs with
  | nil => rfl
  | cons c cs ih => rw [prunedChildren, ih, List.flatMap_cons]

end Location

/-- The snapshot without the files that are removed from its roots. -/
def Snapshot.prune (removes : String → Bool) (s : Snapshot) : Snapshot :=
  ⟨s.roots.map (Location.prune removes)⟩

namespace Fingerprinter

open Location (pruned? prunedChildren childPath)

variable {removes keeps : String → Bool}

/-! ## Entries of what is left -/

/-- The entries of the files that a visit finds and that are kept. -/
def keptFrom (keeps : String → Bool) (relative : String) (l : Location) : Collected :=
  (l.visitFrom relative).flatMap fun (r, x) => keptEntry keeps r x

theorem keptFrom_file (relative : String) (p : Path) (content : ContentHash) :
    keptFrom keeps relative (.file p content) =
      if keeps relative then [(relative, content)] else [] := by
  unfold keptFrom
  rw [Location.visitFrom_file, List.flatMap_singleton]
  rfl

theorem keptFrom_directory (relative : String) (p : Path) (cs : List Location) :
    keptFrom keeps relative (.directory p cs) =
      cs.flatMap fun c => keptFrom keeps (childPath relative c.name) c := by
  unfold keptFrom
  rw [Location.visitFrom_directory, List.flatMap_cons, Location.visitChildren_eq_flatMap,
    List.flatMap_assoc]
  rfl

/-- **A visit of what is left finds the files that are not removed.** -/
theorem flatMap_keptFrom_pruned (l : Location) (relative : String) :
    ((pruned? removes relative l).toList.flatMap fun m => keptFrom keeps relative m) =
      keptFrom (fun r => !removes r && keeps r) relative l := by
  induction l using Location.childInduction generalizing relative with
  | step l ih =>
    cases l with
    | file p content =>
      rw [pruned?, keptFrom_file]
      by_cases h : removes relative
      · simp [h]
      · simp [h, keptFrom_file]
    | directory p cs =>
      rw [pruned?, Option.toList_some, List.flatMap_singleton, keptFrom_directory,
        keptFrom_directory, Location.prunedChildren_eq_flatMap, List.flatMap_assoc]
      refine List.flatMap_congr fun c hc => ?_
      rw [← ih c hc]
      refine List.flatMap_congr fun m hm => ?_
      rw [Location.name_of_mem_pruned? hm]
    | missing p => rw [pruned?]; rfl

/-- **What is left of a root has its entries**, without any pattern. -/
theorem classPathEntries_prune (ignore : IgnoreList) (root : Location) :
    classPathEntries .empty keeps (root.prune ignore.ignores) =
      classPathEntries ignore (fun r => !ignore.ignores r && keeps r) root := by
  cases root with
  | file p content =>
    show classPathEntries .empty keeps (if ignore.ignores p.name then .missing p else _) =
      if ignore.ignores p.name then [] else [("", content)]
    split <;> rfl
  | directory p cs =>
    have hpruned : pruned? ignore.ignores "" (.directory p cs) =
        some ((Location.directory p cs).prune ignore.ignores) := by
      rw [pruned?]
      rfl
    have h : _ = keptFrom (fun r => !ignore.ignores r && keeps r) "" (.directory p cs) :=
      flatMap_keptFrom_pruned _ _
    rw [hpruned, Option.toList_some, List.flatMap_singleton] at h
    exact h
  | missing p => rfl

theorem rootEntries_prune {n : Normalizer} (hn : n = .classPath ∨ n = .compileClassPath)
    (ignore : IgnoreList) (root : Location) :
    (ofNormalizer n .empty).rootEntries (root.prune ignore.ignores) =
      (ofNormalizer n ignore).rootEntries root := by
  rcases hn with rfl | rfl
  · refine (classPathEntries_prune ignore root).trans ?_
    have hkeeps : (fun r => !ignore.ignores r && !IgnoreList.empty.ignores r) =
        fun r => !ignore.ignores r := funext fun r => Bool.and_true _
    rw [hkeeps]
    rfl
  · exact classPathEntries_prune ignore root

theorem entries_prune {n : Normalizer} (hn : n = .classPath ∨ n = .compileClassPath)
    (ignore : IgnoreList) (s : Snapshot) :
    (ofNormalizer n .empty).entries (s.prune ignore.ignores) =
      (ofNormalizer n ignore).entries s := by
  refine entriesFrom_eq_of_forall₂ ?_ 0
  unfold Snapshot.prune
  rw [List.forall₂_map_left_iff, List.forall₂_same]
  exact fun root _ => rootEntries_prune hn ignore root ▸ List.Perm.refl _

/-! ## Configured fingerprinters -/

theorem configure_eq_ok_iff {n : Normalizer} (hn : n = .classPath ∨ n = .compileClassPath)
    {calls : List (List String)} {f : Fingerprinter} : configure n calls = .ok f ↔
      ∃ ignore : IgnoreList, ignore.patterns = calls.flatten ∧ ofNormalizer n ignore = f := by
  have hbind : configure n calls = (calls.foldlM
      (fun l ps => (l.extend ps).mapError FingerprintError.invalidIgnorePattern)
      IgnoreList.empty >>= fun ignore => .ok (ofNormalizer n ignore)) := by
    rcases hn with rfl | rfl <;> rfl
  rw [hbind, bind_eq_ok]
  refine exists_congr fun ignore => ?_
  rw [IgnoreList.foldlM_extend_eq_ok_iff]
  exact and_congr_right fun _ => ⟨Except.ok.inj, congrArg Except.ok⟩

/--
**Ignoring is pruning.** Whatever the calls were that gave a fingerprinter for class paths its
patterns, it makes the entries and the hash that a fingerprinter without patterns makes of what is
left of a snapshot, when all files are gone that one of the patterns matches. A single call with all
patterns in their order succeeds too and makes the same fingerprint, with the same strategy key.
-/
theorem ignoring_eq_pruning {n : Normalizer} (hn : n = .classPath ∨ n = .compileClassPath)
    {calls : List (List String)} {f : Fingerprinter} (hf : configure n calls = .ok f)
    (s : Snapshot) :
    (∃ bare, configure n [] = .ok bare ∧
      (f.fingerprint s none).entries =
        (bare.fingerprint (s.prune (Glob.anyMatches calls.flatten)) none).entries ∧
      (f.fingerprint s none).hash =
        (bare.fingerprint (s.prune (Glob.anyMatches calls.flatten)) none).hash) ∧
      ∃ g, configure n [calls.flatten] = .ok g ∧ g.fingerprint s none = f.fingerprint s none := by
  obtain ⟨ignore, hpatterns, rfl⟩ := (configure_eq_ok_iff hn).mp hf
  have hbare : configure n [] = .ok (ofNormalizer n .empty) :=
    (configure_eq_ok_iff hn).mpr ⟨.empty, rfl, rfl⟩
  have hsingle : configure n [calls.flatten] = .ok (ofNormalizer n ignore) :=
    (configure_eq_ok_iff hn).mpr ⟨ignore, by rw [hpatterns, List.flatten_singleton], rfl⟩
  have hentries := entries_prune hn ignore s
  rw [ignore.ignores_eq_anyMatches, hpatterns] at hentries
  have hnormalizer : (ofNormalizer n ignore).normalizer = (ofNormalizer n .empty).normalizer := by
    cases n <;> rfl
  have hhash : ((ofNormalizer n ignore).fresh s).hash =
      ((ofNormalizer n .empty).fresh (s.prune (Glob.anyMatches calls.flatten))).hash := by
    unfold Fingerprint.hash fresh
    rw [hnormalizer, hentries]
  exact ⟨⟨_, hbare, hentries.symm, hhash⟩, _, hsingle, rfl⟩

/-- An archive, and a text next to another file, not directly in the directory that is the root. -/
def archiveAndText : Snapshot :=
  ⟨[.file ⟨"/l.jar"⟩ ⟨"1"⟩,
    .directory ⟨"/r"⟩ [.directory ⟨"/r/d"⟩ [.file ⟨"/r/d/a.txt"⟩ ⟨"2"⟩, .file ⟨"/r/d/b"⟩ ⟨"3"⟩]]]⟩

theorem prune_archiveAndText : archiveAndText.prune (Glob.anyMatches ["*.txt", "*.jar"]) =
    ⟨[.missing ⟨"/l.jar"⟩, .directory ⟨"/r"⟩ [.directory ⟨"/r/d"⟩ [.file ⟨"/r/d/b"⟩ ⟨"3"⟩]]]⟩ := by
  have hnames : (Path.mk "/l.jar").name = "l.jar" ∧ (Path.mk "/r/d").name = "d" ∧
      (Path.mk "/r/d/a.txt").name = "a.txt" ∧ (Path.mk "/r/d/b").name = "b" := by decide
  have hmatches : Glob.anyMatches ["*.txt", "*.jar"] "l.jar" = true ∧
      Glob.anyMatches ["*.txt", "*.jar"] "d/a.txt" = true ∧
      Glob.anyMatches ["*.txt", "*.jar"] "d/b" = false := by decide +kernel
  simp [archiveAndText, Snapshot.prune, Location.prune, prunedChildren, pruned?, Location.name,
    Location.path, childPath, hnames, hmatches]

/-- The text is gone from its directory, and nothing is where the archive was. -/
theorem ignoring_eq_pruning_archiveAndText :
    ∃ f, configure .classPath [["*.txt"], ["*.jar"]] = .ok f ∧
      (f.fingerprint archiveAndText none).entries = [⟨1, "d/b", ⟨"3"⟩⟩] := by
  obtain ⟨globs, hglobs⟩ : ∃ globs, Glob.parseAll ["*.txt", "*.jar"] = .ok globs := ⟨_, rfl⟩
  have hf : configure .classPath [["*.txt"], ["*.jar"]] = .ok (classPath ⟨_, globs, hglobs⟩) :=
    (configure_eq_ok_iff (.inl rfl)).mpr ⟨_, rfl, rfl⟩
  obtain ⟨⟨bare, hbare, hentries, -⟩, -⟩ := ignoring_eq_pruning (.inl rfl) hf archiveAndText
  obtain rfl : classPath .empty = bare := Except.ok.inj hbare
  have hflatten : [["*.txt"], ["*.jar"]].flatten = ["*.txt", "*.jar"] := rfl
  have hdirectory : (Path.mk "/r/d").name = "d" := by decide
  have hfile : (Path.mk "/r/d/b").name = "b" := by decide
  refine ⟨_, hf, hentries.trans ?_⟩
  rw [hflatten, prune_archiveAndText]
  simp [entries, fingerprint, fresh, numberedEntries, rootEntries, classPathEntries, Location.visit,
    Location.visitChildren, keptEntry, childPath, Location.name, Location.path, IgnoreList.ignores,
    IgnoreList.empty, hdirectory, hfile]

end Fingerprinter

end BuildInputs

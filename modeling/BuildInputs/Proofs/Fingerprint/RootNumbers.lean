import BuildInputs.CommandLine.Run
import BuildInputs.Proofs.Fingerprint.Shadowing
import BuildInputs.Proofs.Snapshot.Capture

/-!
# Numbers of roots

An entry of a fingerprint names its root by a number, and whoever shows the entry looks the number
up in the list of paths that was captured.

1. A snapshot has one location for every path, so the number of an entry is that of a path
   (`getElem?_root_eq_some`).
2. On a class path only a file that is a root itself has an empty identity: what lies in a directory
   has a name (`eq_file_of_mem_rootEntries`).
3. A command that shows a fingerprint has captured the paths that it looks the numbers up in
   (`runFingerprint_eq_ok`).

A file system is a state as in `BuildInputs.Proofs.Snapshot.Capture`, so nothing here depends on how
it answers. Only that an empty path leads nowhere is taken from it, and only where one is captured.
-/

namespace BuildInputs

open CommandLine

namespace Fingerprinter

variable {f : Fingerprinter} {n : Normalizer} {ignore : IgnoreList} {snap : Snapshot}
  {roots : List Path} {root : Location} {e : FingerprintEntry} {c : ContentHash}

/-- A root is captured under the number that it has in the list. -/
theorem getElem?_eq_path {number : Nat} (hpaths : snap.roots.map Location.path = roots)
    (hroot : snap.roots[number]? = some root) : roots[number]? = some root.path := by
  rw [← hpaths, List.getElem?_map, hroot]
  rfl

theorem rootOf_eq_path (hpaths : snap.roots.map Location.path = roots)
    (hroot : snap.roots[e.root]? = some root) : rootOf roots e = root.path := by
  unfold rootOf
  rw [List.getD_eq_getElem?_getD, getElem?_eq_path hpaths hroot]
  rfl

/-- The number of an entry leads to the path that is shown as its root. -/
theorem getElem?_root_eq_some (hpaths : snap.roots.map Location.path = roots)
    (he : e ∈ f.entries snap) : roots[e.root]? = some (rootOf roots e) := by
  obtain ⟨root, hroot, -⟩ := mem_entries_iff.mp he
  rw [getElem?_eq_path hpaths hroot, rootOf_eq_path hpaths hroot]

/-- An entry of a class path root without an identity is that of the root, which is a file. -/
theorem eq_file_of_mem_rootEntries (hn : n = .classPath ∨ n = .compileClassPath)
    (hnames : ∀ c ∈ root.children, c.name ≠ "")
    (h : ("", c) ∈ (ofNormalizer n ignore).rootEntries root) : root = .file root.path c := by
  rw [rootEntries_eq_listing _ hnames] at h
  obtain ⟨⟨t, l⟩, hmem, h⟩ := List.mem_filterMap.mp h
  have hlisted : (ofNormalizer n ignore).listed? root t l = some ("", c) := h
  have htext : trailText t = "" := trailText_of_listed?_eq_some hn hlisted
  rcases Location.eq_nil_or_ne_empty_of_mem_trails hnames hmem with ⟨rfl, rfl⟩ | ⟨-, hne⟩
  · unfold listed? at hlisted
    rw [identityOf?_ofNormalizer hn] at hlisted
    obtain ⟨i, hi, heq⟩ := Option.map_eq_some_iff.mp hlisted
    have hcontent : standInHash l = c := congrArg Prod.snd heq
    obtain ⟨hkind, -⟩ := Option.ite_none_right_eq_some.mp hi
    cases l with
    | file p content =>
      rw [← hcontent]
      rfl
    | directory p cs | missing p => cases hkind
  · exact absurd htext hne

/-- An entry of a class path without an identity has the number of a file. -/
theorem getElem?_eq_file_of_identity_eq_empty (hn : n = .classPath ∨ n = .compileClassPath)
    (hpaths : snap.roots.map Location.path = roots)
    (hnames : ∀ l ∈ snap.roots, ∀ c ∈ l.children, c.name ≠ "")
    (he : e ∈ (ofNormalizer n ignore).entries snap) (hempty : e.identity = "") :
    snap.roots[e.root]? = some (.file (rootOf roots e) e.content) := by
  obtain ⟨root, hroot, hnamed⟩ := mem_entries_iff.mp he
  have hentry : ("", e.content) ∈ (ofNormalizer n ignore).rootEntries root := hempty ▸ hnamed
  have hchildren := hnames root (List.mem_of_getElem? hroot)
  rw [hroot, rootOf_eq_path hpaths hroot, ← eq_file_of_mem_rootEntries hn hchildren hentry]

end Fingerprinter

namespace Disk

variable {σ : Type} {disk : Disk (StateM σ)} {s t u : σ} {paths roots missing : List Path}
  {n : Normalizer} {ignore : List String} {format : OutputFormat} {f : Fingerprinter} {o : Outcome}
  {text : String}

/-- A command makes its paths absolute, captures them and shows the fingerprint. -/
theorem run_runFingerprint {r : Except SnapshotError Snapshot}
    (hf : chooseFingerprinter n ignore = .ok f)
    (hroots : (disk.absoluteAll paths).run s = ((roots, missing), u))
    (hsnap : (disk.snapshot (pure false) roots).run u = (r, t)) :
    (disk.runFingerprint paths n ignore format).run s =
      (⟨missing, (r.map fun snap => fingerprintText format roots (f.fingerprint snap none)).mapError
        .capturing⟩, t) := by
  unfold runFingerprint
  rw [hf]
  dsimp only
  rw [StateT.run_bind, hroots]
  show StateT.run (disk.snapshot (pure false) roots >>= _) u = _
  rw [StateT.run_bind, hsnap]
  rfl

/-- A command that shows a text has captured the absolute paths. -/
theorem runFingerprint_eq_ok (hrun : (disk.runFingerprint paths n ignore format).run s = (o, t))
    (hok : o.result = .ok text) : ∃ f roots u snap, chooseFingerprinter n ignore = .ok f ∧
      (disk.absoluteAll paths).run s = ((roots, o.missing), u) ∧
      (disk.snapshot (pure false) roots).run u = (.ok snap, t) ∧
      text = fingerprintText format roots (f.fingerprint snap none) := by
  cases hf : chooseFingerprinter n ignore with
  | error e =>
    unfold runFingerprint at hrun
    rw [hf] at hrun
    cases hrun
    cases hok
  | ok f =>
    obtain ⟨⟨⟨roots, missing⟩, u⟩, hroots⟩ : ∃ x, (disk.absoluteAll paths).run s = x := ⟨_, rfl⟩
    obtain ⟨⟨r, v⟩, hsnap⟩ : ∃ x, (disk.snapshot (pure false) roots).run u = x := ⟨_, rfl⟩
    rw [run_runFingerprint hf hroots hsnap] at hrun
    cases hrun
    cases r with
    | error e => cases hok
    | ok snap =>
      cases hok
      exact ⟨f, roots, u, snap, rfl, hroots, hsnap, rfl⟩

/--
**Root numbers stay in range**, whatever the file system answers and however it changes meanwhile.
Nobody cancels here; whoever does gets the same snapshot or none.

A snapshot is what all roots are captured as, one after the other, or else the error is that of the
first root that cannot be captured. In a snapshot there is one location for every root, in order and
with its path. The entries of its fingerprints have numbers of roots, and an entry of a class path
with an empty identity has that of a file. A command that shows a fingerprint finds every number in
the list of paths that it has captured.
-/
theorem root_numbers_in_range (disk : Disk (StateM σ)) (s : σ) :
    (∀ roots snap t, (disk.snapshot (pure false) roots).run s = (.ok snap, t) ↔
      disk.CapturesAll s roots snap.roots t) ∧
    (∀ roots e t, (disk.snapshot (pure false) roots).run s = (.error e, t) ↔
      disk.FailsFirst s roots e t) ∧
    (∀ roots snap t, (disk.snapshot (pure false) roots).run s = (.ok snap, t) →
      snap.roots.map Location.path = roots ∧
      (∀ f : Fingerprinter, ∀ e ∈ (f.fingerprint snap none).entries, e.root < roots.length) ∧
      ((⟨""⟩ ∈ roots → disk.RefusesEmptyPath) →
        ∀ n ignore, n = .classPath ∨ n = .compileClassPath →
        ∀ e ∈ ((Fingerprinter.ofNormalizer n ignore).fingerprint snap none).entries,
        e.identity = "" → snap.roots[e.root]? = some (.file (rootOf roots e) e.content))) ∧
    (∀ paths n ignore format o t text,
      (disk.runFingerprint paths n ignore format).run s = (o, t) → o.result = .ok text →
      ∃ f roots u snap, chooseFingerprinter n ignore = .ok f ∧
        (disk.absoluteAll paths).run s = ((roots, o.missing), u) ∧
        (disk.snapshot (pure false) roots).run u = (.ok snap, t) ∧
        text = fingerprintText format roots (f.fingerprint snap none) ∧
        ∀ e ∈ (f.fingerprint snap none).entries, roots[e.root]? = some (rootOf roots e)) := by
  refine ⟨fun _ _ _ => snapshot_eq_ok_iff, fun _ _ _ => snapshot_eq_error_iff, ?_, ?_⟩
  · intro roots snap t hsnap
    have hall := snapshot_eq_ok_iff.mp hsnap
    refine ⟨hall.map_path, fun f e he => ?_, fun hdisk n ignore hn e he hempty => ?_⟩
    · have hfound := Fingerprinter.getElem?_root_eq_some hall.map_path he
      exact (List.getElem?_eq_some_iff.mp hfound).1
    · exact Fingerprinter.getElem?_eq_file_of_identity_eq_empty hn hall.map_path
        (hall.name_ne_empty hdisk) he hempty
  · intro paths n ignore format o t text hrun hok
    obtain ⟨f, roots, u, snap, hf, hroots, hsnap, htext⟩ := runFingerprint_eq_ok hrun hok
    refine ⟨f, roots, u, snap, hf, hroots, hsnap, htext, fun e he => ?_⟩
    exact Fingerprinter.getElem?_root_eq_some (snapshot_eq_ok_iff.mp hsnap).map_path he

/-- Files on this disk grow by a zero whenever one is read. -/
def growingDisk : Disk (StateM Nat) where
  place p := return if p = ⟨"/l.jar"⟩ then .ok .file
    else if p = ⟨"/r"⟩ then .ok .directory else .error .notFound
  itself p := return if p = ⟨"/r"⟩ then .ok (some .directory)
    else if p = ⟨"/x"⟩ then .ok none else .error .notFound
  identity p := return .ok p.text
  list p := return if p = ⟨"/r"⟩ then .ok [.ok ⟨"a", some .file⟩] else .error .notDirectory
  read _ := modifyGet fun n => (.ok (List.replicate n 0), n + 1)
  resolve p := return .ok p
  workingDirectory := return ⟨"/"⟩

/-- A directory, an archive and a path that leads nowhere. -/
def growingRoots : List Path := [⟨"/r"⟩, ⟨"/l.jar"⟩, ⟨"/gone"⟩]

def growingSnapshot : Snapshot :=
  ⟨[.directory ⟨"/r"⟩ [.file ⟨"/r/a"⟩ (.ofBytes [])], .file ⟨"/l.jar"⟩ (.ofBytes [0]),
    .missing ⟨"/gone"⟩]⟩

/-- The fingerprinter of a class path without ignore patterns. -/
def growingFingerprinter : Fingerprinter := .ofNormalizer .classPath .empty

theorem capturesAll_growingDisk :
    growingDisk.CapturesAll 0 growingRoots growingSnapshot.roots 2 := by
  have hwalk : Ends (growingDisk.walk (pure false) ⟨"/r"⟩) 0 (.ok [⟨⟨"/r/a"⟩, 1, some ()⟩]) 0 := by
    show Ends (growingDisk.walkBelow (pure false) ⟨"/r"⟩ (4095 + 1) [⟨"/r"⟩] ⟨"/r"⟩ 1
      (.ok [.ok ⟨"a", some .file⟩])) 0 _ 0
    unfold walkBelow
    rw [List.mergeSort_singleton]
    rfl
  have hpresent : ∀ c ∈ [Location.file ⟨"/r/a"⟩ (.ofBytes [])], Location.Present c :=
    List.forall_mem_singleton.mpr (.file _ _)
  have hassembled : assemble ⟨"/r"⟩ [⟨⟨"/r/a"⟩, 1, some (.ofBytes [])⟩] =
      .directory ⟨"/r"⟩ [.file ⟨"/r/a"⟩ (.ofBytes [])] := assemble_walkChildren ⟨"/r"⟩ hpresent
  have hdirectory : growingDisk.Captures 0 ⟨"/r"⟩
      (.directory ⟨"/r"⟩ [.file ⟨"/r/a"⟩ (.ofBytes [])]) 1 := by
    rw [← hassembled]
    show Ends (growingDisk.snapshotDirectory (pure false) ⟨"/r"⟩) 0 _ 1
    exact ends_bind_ok_iff.mpr ⟨_, 0, hwalk, ends_bind_ok_iff.mpr ⟨_, 1, rfl, rfl⟩⟩
  exact .cons hdirectory (.cons rfl (.cons rfl (.nil 2)))

/-- The file in the directory was read before the archive, which has one zero for it. -/
theorem root_numbers_in_range_growingDisk :
    growingDisk.RefusesEmptyPath ∧
      (growingDisk.snapshot (pure false) growingRoots).run 0 = (.ok growingSnapshot, 2) ∧
      (growingDisk.snapshot (pure false) [⟨"/l.jar"⟩, ⟨"/x"⟩]).run 0 =
        (.error (.brokenLink ⟨"/x"⟩), 1) ∧
      (∃ e ∈ (growingFingerprinter.fingerprint growingSnapshot none).entries, e.identity = "" ∧
        e.root < 3 ∧ growingSnapshot.roots[e.root]? = some (.file ⟨"/l.jar"⟩ e.content)) ∧
      ∃ (o : Outcome) (f : Fingerprinter) (roots : List Path) (snap : Snapshot),
        (growingDisk.runFingerprint growingRoots .classPath [] .text).run 0 = (o, 2) ∧
        o.result = .ok (fingerprintText .text roots (f.fingerprint snap none)) ∧
        ∀ e ∈ (f.fingerprint snap none).entries, roots[e.root]? = some (rootOf roots e) := by
  have hrefuses : growingDisk.RefusesEmptyPath := fun n => ⟨.notFound, n, rfl⟩
  obtain ⟨hok, hfail, hsnapshots, hcommand⟩ := root_numbers_in_range growingDisk 0
  have hsnap : (growingDisk.snapshot (pure false) growingRoots).run 0 = (.ok growingSnapshot, 2) :=
    (hok _ _ _).mpr capturesAll_growingDisk
  have hlink : growingDisk.FailsFirst 0 [⟨"/l.jar"⟩, ⟨"/x"⟩] (.brokenLink ⟨"/x"⟩) 1 :=
    ⟨[⟨"/l.jar"⟩], ⟨"/x"⟩, [], [.file ⟨"/l.jar"⟩ (.ofBytes [])], 1, rfl, .cons rfl (.nil 1), rfl⟩
  obtain ⟨-, hrange, hfile⟩ := hsnapshots _ _ _ hsnap
  have harchive : ⟨1, "", .ofBytes [0]⟩ ∈
      (growingFingerprinter.fingerprint growingSnapshot none).entries :=
    Fingerprinter.mem_entries_iff.mpr ⟨_, rfl, List.mem_singleton.mpr rfl⟩
  refine ⟨hrefuses, hsnap, (hfail _ _ _).mpr hlink, ⟨_, harchive, rfl, hrange _ _ harchive, ?_⟩, ?_⟩
  · exact hfile (fun _ => hrefuses) _ _ (.inl rfl) _ harchive rfl
  · have hchosen : chooseFingerprinter .classPath [] = .ok growingFingerprinter := rfl
    have habsolute : (growingDisk.absoluteAll growingRoots).run 0 = ((growingRoots, []), 0) := rfl
    have hshown : (growingDisk.runFingerprint growingRoots .classPath [] .text).run 0 =
        (⟨[], .ok (fingerprintText .text growingRoots
          (growingFingerprinter.fingerprint growingSnapshot none))⟩, 2) :=
      run_runFingerprint hchosen habsolute hsnap
    obtain ⟨f, roots, u, snap, -, -, -, htext, hroots⟩ := hcommand _ _ _ _ _ _ _ hshown rfl
    exact ⟨_, f, roots, snap, hshown, congrArg Except.ok htext, hroots⟩

end Disk

end BuildInputs

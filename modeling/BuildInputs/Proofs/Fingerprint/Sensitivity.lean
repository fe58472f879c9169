import BuildInputs.Proofs.Fingerprint.Summary
import BuildInputs.Proofs.Snapshot.Place

/-!
# Fingerprints notice edits and exchanged roots

When one file gets another content, the hash of a fingerprint changes exactly if the fingerprinter
makes an entry of the file; signatures and the hashes of directories above the file change in any
case. When two roots change places, the hash changes if both have entries and not the same ones.

1. What a root contributes is collected location by location (`rootEntries_eq_flatMap`), and what is
   collected of a location does not depend on its children (`contribution_bare`).
2. A file contributes one entry or none (`entryOrNone_contribution`). So an edit replaces one entry
   by another one with the same identity, wherever the sort puts it (`exists_rootEntries_root`).
   Blocks are sorted, hence equal only when these two entries are (`block_root_eq_iff`).
3. Every root with an entry has a block of its own (`blocks_cons_of_ne_nil`).
-/

namespace BuildInputs

open Digest

namespace Fingerprinter

open Location (Place bare bareVisit)

/-! ## What a location contributes -/

/-- What a location found under a relative path contributes to the entries of a class path root. -/
def classPathEntry (ignore : IgnoreList) (keeps : String → Bool) (root : Location)
    (relative : String) (l : Location) : Collected :=
  match root.kind with
  | .regularFile => if ignore.ignores root.name then [] else contentEntry l
  | .directory => keptEntry keeps relative l
  | .missing => []

/-- What a location found under a relative path contributes to the entries of a root. -/
def contribution (f : Fingerprinter) (root : Location) (relative : String) (l : Location) :
    Collected :=
  match f with
  | absolutePath => absoluteEntry root relative l
  | relativePath => relativeEntry root relative l
  | nameOnly => nameEntry l
  | ignoredPath => contentEntry l
  | classPath ignore => classPathEntry ignore (fun r => !ignore.ignores r) root relative l
  | compileClassPath ignore =>
    classPathEntry ignore (fun r => !ignore.ignores r && isClassFile r) root relative l

theorem classPathEntries_eq_flatMap (ignore : IgnoreList) (keeps : String → Bool)
    (root : Location) : classPathEntries ignore keeps root =
      root.visit.flatMap fun (relative, l) => classPathEntry ignore keeps root relative l := by
  cases root with
  | file p content =>
    unfold Location.visit
    rw [Location.visitFrom_file, List.flatMap_singleton]
    rfl
  | directory p cs => rfl
  | missing p =>
    unfold Location.visit
    rw [Location.visitFrom_missing, List.flatMap_singleton]
    rfl

/-- **The entries of a root are what the locations in it contribute.** -/
theorem rootEntries_eq_flatMap (f : Fingerprinter) (root : Location) : f.rootEntries root =
    root.visit.flatMap fun (relative, l) => f.contribution root relative l := by
  cases f with
  | classPath ignore => exact classPathEntries_eq_flatMap _ _ root
  | compileClassPath ignore => exact classPathEntries_eq_flatMap _ _ root
  | _ => rfl

/-- Children do not show in what a directory contributes itself. -/
theorem contribution_bare (f : Fingerprinter) (root : Location) (relative : String) (l : Location) :
    f.contribution root relative l.bare = f.contribution root relative l := by
  cases l with
  | directory p cs =>
    cases f with
    | classPath ignore | compileClassPath ignore =>
      unfold contribution classPathEntry
      cases root.kind <;> rfl
    | _ => rfl
  | file p content => rfl
  | missing p => rfl

theorem rootEntries_eq_flatMap_bareVisit (f : Fingerprinter) (root : Location) :
    f.rootEntries root =
      (bareVisit "" root).flatMap fun (relative, l) => f.contribution root relative l := by
  unfold bareVisit
  rw [rootEntries_eq_flatMap, List.flatMap_map]
  exact List.flatMap_congr fun _ _ => (contribution_bare _ _ _ _).symm

/-- Of its root a contribution depends on the path and the kind only. -/
theorem contribution_congr (f : Fingerprinter) {root root' : Location}
    (hpath : root.path = root'.path) (hkind : root.kind = root'.kind) :
    f.contribution root = f.contribution root' := by
  have hname : root.name = root'.name := congrArg Path.name hpath
  funext relative l
  unfold contribution
  cases f with
  | absolutePath => rw [absoluteEntry_congr hpath]
  | relativePath => rw [relativeEntry_congr hkind]
  | classPath ignore | compileClassPath ignore =>
    simp only [classPathEntry]
    rw [hkind, hname]
  | _ => rfl

/-- Whatever the content is, there is one entry with it, always the same one, or never an entry. -/
def EntryOrNone (made : ContentHash → Collected) : Prop :=
  (∃ identity, ∀ c, made c = [(identity, c)]) ∨ ∀ c, made c = []

namespace EntryOrNone

theorem entry (identity : String) : EntryOrNone fun c => [(identity, c)] :=
  .inl ⟨identity, fun _ => rfl⟩

theorem none : EntryOrNone fun _ => [] := .inr fun _ => rfl

theorem ite {p : Prop} [Decidable p] {made made' : ContentHash → Collected}
    (h : EntryOrNone made) (h' : EntryOrNone made') :
    EntryOrNone fun c => if p then made c else made' c := by
  by_cases hp : p
  · simpa only [if_pos hp] using h
  · simpa only [if_neg hp] using h'

/-- Different contents show exactly in an entry. -/
theorem perm_iff {made : ContentHash → Collected} (h : EntryOrNone made) {c c' : ContentHash}
    (hne : c ≠ c') : (made c).Perm (made c') ↔ made c = [] := by
  rcases h with ⟨identity, h⟩ | h
  · rw [h, h, List.singleton_perm_singleton]
    exact iff_of_false (fun he => hne (Prod.mk.inj he).2) (List.cons_ne_nil _ _)
  · rw [h, h]
    exact iff_of_true (List.Perm.refl _) rfl

end EntryOrNone

theorem entryOrNone_keptEntry (keeps : String → Bool) (relative : String) (p : Path) :
    EntryOrNone fun c => keptEntry keeps relative (.file p c) :=
  .ite (.entry relative) .none

theorem entryOrNone_relativeEntry (root : Location) (relative : String) (p : Path) :
    EntryOrNone fun c => relativeEntry root relative (.file p c) := by
  refine .ite (.entry relative) ?_
  cases root.kind with
  | directory => exact .none
  | regularFile | missing => exact .entry p.name

theorem entryOrNone_classPathEntry (ignore : IgnoreList) (keeps : String → Bool) (root : Location)
    (relative : String) (p : Path) :
    EntryOrNone fun c => classPathEntry ignore keeps root relative (.file p c) := by
  unfold classPathEntry
  cases root.kind with
  | regularFile => exact .ite .none (.entry "")
  | directory => exact entryOrNone_keptEntry keeps relative p
  | missing => exact .none

/-- **A file contributes one entry, with its content, or none.** -/
theorem entryOrNone_contribution (f : Fingerprinter) (root : Location) (relative : String)
    (p : Path) : EntryOrNone fun c => f.contribution root relative (.file p c) := by
  cases f with
  | absolutePath => exact .entry (absoluteText root relative)
  | relativePath => exact entryOrNone_relativeEntry root relative p
  | nameOnly => exact .entry p.name
  | ignoredPath => exact .entry ""
  | classPath ignore => exact entryOrNone_classPathEntry ..
  | compileClassPath ignore => exact entryOrNone_classPathEntry ..

end Fingerprinter

/-! ## Files in snapshots -/

/-- Where a file lies in a snapshot: its path, its place below a root, and the other roots. -/
structure FilePosition where
  path : Path
  place : Location.Place
  before : List Location
  after : List Location

namespace FilePosition

open Fingerprinter (contribution)

/-- The root with the file, which has the given content. -/
def root (x : FilePosition) (content : ContentHash) : Location := x.place.put (.file x.path content)

/-- The snapshot with the file, which has the given content. -/
def snapshot (x : FilePosition) (content : ContentHash) : Snapshot :=
  ⟨x.before ++ x.root content :: x.after⟩

/-- The relative path of the file below its root. -/
def relative (x : FilePosition) : String := x.place.relativeFrom "" x.path.name

/-- The fingerprinter makes an entry of the file. -/
def Contributes (x : FilePosition) (f : Fingerprinter) (content : ContentHash) : Prop :=
  f.contribution (x.root content) x.relative (.file x.path content) ≠ []

theorem root_mem (x : FilePosition) (content : ContentHash) :
    x.root content ∈ (x.snapshot content).roots :=
  List.mem_append_right _ List.mem_cons_self

/-- **Every file that a visit to a root of a snapshot finds has a position.** -/
theorem exists_of_mem_visit {s : Snapshot} {l : Location} {r : String} {p : Path}
    {content : ContentHash} (hl : l ∈ s.roots) (h : (r, Location.file p content) ∈ l.visit) :
    ∃ x : FilePosition, x.snapshot content = s ∧ x.path = p ∧ x.relative = r := by
  obtain ⟨before, after, hroots⟩ := List.append_of_mem hl
  obtain ⟨place, hput, hr⟩ := Location.exists_put_of_mem_visitFrom h
  refine ⟨⟨p, place, before, after⟩, ?_, rfl, hr⟩
  unfold snapshot root
  rw [hput, ← hroots]

/-- The content of the file has no part in what the root contributes elsewhere. -/
theorem contribution_root (x : FilePosition) (f : Fingerprinter) (c c' : ContentHash) :
    f.contribution (x.root c) = f.contribution (x.root c') :=
  f.contribution_congr (x.place.path_put_file ..) (x.place.kind_put_file ..)

/-- The root has the same entries around that of the file, whatever content the file has. -/
theorem exists_rootEntries_root (x : FilePosition) (f : Fingerprinter) :
    ∃ before after, ∀ c, f.rootEntries (x.root c) =
      before ++ f.contribution (x.root c) x.relative (.file x.path c) ++ after := by
  obtain ⟨before, after, hvisit⟩ := Location.exists_bareVisit_put x.path x.place ""
  refine ⟨before.flatMap fun (r, l) => f.contribution (x.root ⟨""⟩) r l,
    after.flatMap fun (r, l) => f.contribution (x.root ⟨""⟩) r l, fun c => ?_⟩
  have hroot : Location.bareVisit "" (x.root c) = _ := hvisit c
  rw [Fingerprinter.rootEntries_eq_flatMap_bareVisit, x.contribution_root f c ⟨""⟩, hroot,
    List.flatMap_append, List.flatMap_cons, List.append_assoc]
  rfl

/-- **An edit of the file shows in the block of its root exactly if the file contributes.** -/
theorem block_root_eq_iff {x : FilePosition} {f : Fingerprinter} {c c' : ContentHash}
    (hne : c ≠ c') : f.block (x.root c) = f.block (x.root c') ↔ ¬ x.Contributes f c := by
  obtain ⟨before, after, hentries⟩ := x.exists_rootEntries_root f
  unfold Contributes
  rw [Fingerprinter.block_eq_iff, hentries, hentries, x.contribution_root f c' c,
    List.perm_append_right_iff, List.perm_append_left_iff, not_not]
  exact (f.entryOrNone_contribution (x.root c) x.relative x.path).perm_iff hne

/-! ## Signatures -/

/-- **An edit of the file shows in the signature of the snapshot.** -/
theorem signature_ne {known : List Bytes} (hc : CollisionFree known) {x : FilePosition}
    {c c' : ContentHash} (hne : c ≠ c') (hs : (x.snapshot c).Hashed known)
    (ht : (x.snapshot c').Hashed known) :
    (x.snapshot c).signature ≠ (x.snapshot c').signature := by
  intro h
  have hstream : (x.snapshot c).signatureStream = (x.snapshot c').signatureStream :=
    hc.stream_eq (hs.streams List.mem_cons_self) (ht.streams List.mem_cons_self) h
  have hlabels := Snapshot.map_rootLabel_eq_of_signatureStream_eq hs ht hstream
  unfold snapshot at hlabels
  rw [List.map_append, List.map_append, List.map_cons, List.map_cons] at hlabels
  have hlabel := (List.cons.inj (List.append_cancel_left hlabels)).1
  exact Location.hashText_put_ne hc hne (hs.root _ (x.root_mem c)) (ht.root _ (x.root_mem c'))
    (Label.mk.inj hlabel).2.2

end FilePosition

namespace Fingerprinter

/-! ## Blocks of single roots -/

theorem blocks_append (f : Fingerprinter) (ls ms : List Location) :
    f.blocks ⟨ls ++ ms⟩ = f.blocks ⟨ls⟩ ++ f.blocks ⟨ms⟩ := by
  unfold blocks
  rw [List.map_append, List.filter_append]

variable {f : Fingerprinter} {l m : Location} {ls : List Location}

/-- **A root with an entry has a block of its own.** -/
theorem blocks_cons_of_ne_nil (h : f.block l ≠ []) :
    f.blocks ⟨l :: ls⟩ = f.block l :: f.blocks ⟨ls⟩ :=
  List.filter_cons_of_pos (by simpa using h)

/-- A root without an entry leaves no trace. -/
theorem blocks_cons_of_eq_nil (h : f.block l = []) : f.blocks ⟨l :: ls⟩ = f.blocks ⟨ls⟩ :=
  List.filter_cons_of_neg (by simpa using h)

/-- One root in front of the same others is told by its block. -/
theorem blocks_cons_eq_iff : f.blocks ⟨l :: ls⟩ = f.blocks ⟨m :: ls⟩ ↔ f.block l = f.block m := by
  by_cases hl : f.block l = []
  · rw [blocks_cons_of_eq_nil hl]
    by_cases hm : f.block m = []
    · rw [blocks_cons_of_eq_nil hm, hl, hm]
      exact iff_of_true rfl rfl
    · rw [blocks_cons_of_ne_nil hm, hl]
      exact iff_of_false (List.cons_ne_self _ _).symm (Ne.symm hm)
  · rw [blocks_cons_of_ne_nil hl]
    by_cases hm : f.block m = []
    · rw [blocks_cons_of_eq_nil hm, hm]
      exact iff_of_false (List.cons_ne_self _ _) hl
    · rw [blocks_cons_of_ne_nil hm, List.cons.injEq]
      exact and_iff_left rfl

/-- An edit of a file shows in the blocks exactly if the file contributes. -/
theorem blocks_snapshot_eq_iff {x : FilePosition} {c c' : ContentHash} (hne : c ≠ c') :
    f.blocks (x.snapshot c) = f.blocks (x.snapshot c') ↔ ¬ x.Contributes f c := by
  unfold FilePosition.snapshot
  rw [blocks_append, blocks_append, List.append_right_inj, blocks_cons_eq_iff,
    FilePosition.block_root_eq_iff hne]

/-- **Roots with entries can be exchanged exactly when they have the same ones.** -/
theorem blocks_exchange_eq_iff {before between after : List Location} (hl : f.block l ≠ [])
    (hm : f.block m ≠ []) : f.blocks ⟨before ++ l :: between ++ m :: after⟩ =
      f.blocks ⟨before ++ m :: between ++ l :: after⟩ ↔ f.block l = f.block m := by
  rw [List.append_assoc, List.append_assoc, blocks_append, blocks_append f before,
    List.append_right_inj, List.cons_append, List.cons_append, blocks_cons_of_ne_nil hl,
    blocks_cons_of_ne_nil hm, List.cons.injEq]
  constructor
  · exact And.left
  · intro h
    rw [blocks_append, blocks_append, blocks_cons_of_ne_nil hl, blocks_cons_of_ne_nil hm, h]
    exact ⟨rfl, rfl⟩

/-! ## Sensitivity -/

/--
**Fingerprints are sensitive to contents and to the order of roots.** Every file in a snapshot has a
position. If the file there gets another content, the hash of the fingerprint changes exactly when
the fingerprinter makes an entry of the file, and the signature of the snapshot and the hashes of
the directories above the file change in any case. If two roots with entries are exchanged, the
hash changes exactly when their entries are not the same.
-/
theorem hash_sensitive (f : Fingerprinter) :
    (∀ (s : Snapshot) (root : Location) (relative : String) (p : Path) (c : ContentHash),
      root ∈ s.roots → (relative, Location.file p c) ∈ root.visit →
        ∃ x : FilePosition, x.snapshot c = s ∧ x.path = p ∧ x.relative = relative) ∧
    (∀ (x : FilePosition) (c c' : ContentHash), c ≠ c' →
      CollisionFree ((x.snapshot c).streams ++ (x.snapshot c').streams ++
        [(f.fresh (x.snapshot c)).summaryStream, (f.fresh (x.snapshot c')).summaryStream]) →
      (∀ t ∈ (x.snapshot c).texts ++ (x.snapshot c').texts ++
        ((f.fresh (x.snapshot c)).texts ++ (f.fresh (x.snapshot c')).texts), Framable (utf8 t)) →
      ((f.fingerprint (x.snapshot c) none).hash ≠ (f.fingerprint (x.snapshot c') none).hash ↔
        x.Contributes f c) ∧
      (x.snapshot c).signature ≠ (x.snapshot c').signature ∧
      ∀ above ∈ x.place.enclosing,
        (above.put (.file x.path c)).hash? ≠ (above.put (.file x.path c')).hash?) ∧
    ∀ (before between after : List Location) (l m : Location), f.block l ≠ [] → f.block m ≠ [] →
      ∀ s t : Snapshot, s.roots = before ++ l :: between ++ m :: after →
        t.roots = before ++ m :: between ++ l :: after →
        CollisionFree [(f.fresh s).summaryStream, (f.fresh t).summaryStream] →
        (∀ x ∈ (f.fresh s).texts ++ (f.fresh t).texts, Framable (utf8 x)) →
        ((f.fingerprint s none).hash ≠ (f.fingerprint t none).hash ↔ f.block l ≠ f.block m) := by
  refine ⟨fun s root relative p c hroot hfile => FilePosition.exists_of_mem_visit hroot hfile,
    fun x c c' hne hc htexts => ?_, ?_⟩
  · have hs : (x.snapshot c).Hashed ((x.snapshot c).streams ++ (x.snapshot c').streams) :=
      ⟨List.subset_append_left _ _,
        fun t ht => htexts t (List.mem_append_left _ (List.mem_append_left _ ht))⟩
    have ht : (x.snapshot c').Hashed ((x.snapshot c).streams ++ (x.snapshot c').streams) :=
      ⟨List.subset_append_right _ _,
        fun t ht => htexts t (List.mem_append_left _ (List.mem_append_right _ ht))⟩
    have hsnapshots := hc.mono (List.subset_append_left _ _)
    refine ⟨?_, FilePosition.signature_ne hsnapshots hne hs ht, fun above hmem => ?_⟩
    · rw [Ne, hash_fingerprint_eq_iff (hc.mono (List.subset_append_right _ _))
        (fun t ht => htexts t (List.mem_append_right _ ht)), blocks_snapshot_eq_iff hne, not_not]
    · exact Location.hash?_enclosing_ne hsnapshots hne hmem (hs.root _ (x.root_mem c))
        (ht.root _ (x.root_mem c'))
  · rintro before between after l m hl hm ⟨_⟩ ⟨_⟩ rfl rfl hc htexts
    rw [Ne, hash_fingerprint_eq_iff hc htexts, blocks_exchange_eq_iff hl hm]

/-- A file next to another one of the same name. -/
def besideNamesake : FilePosition :=
  ⟨⟨"/r/a"⟩, .inside ⟨"/r"⟩ [.file ⟨"/r/a/"⟩ ⟨"2"⟩] .here [], [], []⟩

theorem snapshot_besideNamesake (c : ContentHash) : besideNamesake.snapshot c =
    ⟨[.directory ⟨"/r"⟩ [.file ⟨"/r/a/"⟩ ⟨"2"⟩, .file ⟨"/r/a"⟩ c]]⟩ := rfl

theorem entries_besideNamesake_one :
    ignoredPath.entries (besideNamesake.snapshot ⟨"1"⟩) = [⟨0, "", ⟨"1"⟩⟩, ⟨0, "", ⟨"2"⟩⟩] := by
  have hle : entryLE ("", ⟨"2"⟩) ("", ⟨"1"⟩) = false := by decide
  rw [snapshot_besideNamesake]
  simp [entries, numberedEntries, rootEntries, Location.visit, contentEntry,
    Location.visitChildren, List.mergeSort, hle]

theorem entries_besideNamesake_three :
    ignoredPath.entries (besideNamesake.snapshot ⟨"3"⟩) = [⟨0, "", ⟨"2"⟩⟩, ⟨0, "", ⟨"3"⟩⟩] := by
  have hle : entryLE ("", ⟨"2"⟩) ("", ⟨"3"⟩) = true := by decide
  rw [snapshot_besideNamesake]
  simp [entries, numberedEntries, rootEntries, Location.visit, contentEntry,
    Location.visitChildren, List.mergeSort, hle]

set_option maxRecDepth 10000 in
theorem collisionFree_besideNamesake :
    CollisionFree ((besideNamesake.snapshot ⟨"1"⟩).streams ++
      (besideNamesake.snapshot ⟨"3"⟩).streams ++
        [(ignoredPath.fresh (besideNamesake.snapshot ⟨"1"⟩)).summaryStream,
          (ignoredPath.fresh (besideNamesake.snapshot ⟨"3"⟩)).summaryStream]) := by
  simp only [Fingerprint.summaryStream, fresh, entries_besideNamesake_one,
    entries_besideNamesake_three]
  simp only [snapshot_besideNamesake, Snapshot.streams,
    Snapshot.signatureStream, Location.streams, Location.streamsBelow, directoryStream,
    List.flatMap_cons, List.flatMap_nil, Location.signaturePieces, Location.hash?, directoryHash,
    Location.childRecords, ChildRecord.sort_pair]
  decide +kernel

theorem framable_besideNamesake : ∀ t ∈ (besideNamesake.snapshot ⟨"1"⟩).texts ++
    (besideNamesake.snapshot ⟨"3"⟩).texts ++
      ((ignoredPath.fresh (besideNamesake.snapshot ⟨"1"⟩)).texts ++
        (ignoredPath.fresh (besideNamesake.snapshot ⟨"3"⟩)).texts), Framable (utf8 t) := by
  simp only [Fingerprint.texts, fresh, entries_besideNamesake_one, entries_besideNamesake_three]
  simp only [snapshot_besideNamesake, Snapshot.texts, Location.texts, Location.textsBelow,
    List.flatMap_cons, List.flatMap_nil]
  decide +kernel

/-- Two files in the other order. -/
def exchangedFiles : Snapshot := ⟨[.file ⟨"/b"⟩ ⟨"2"⟩, .missing ⟨"/m"⟩, .file ⟨"/a"⟩ ⟨"1"⟩]⟩

theorem entries_exchangedFiles : ignoredPath.entries exchangedFiles =
    [⟨0, "", ⟨"2"⟩⟩, ⟨2, "", ⟨"1"⟩⟩] := by
  simp [entries, exchangedFiles, numberedEntries, rootEntries, Location.visit, contentEntry]

theorem block_ignoredPath_file (p : Path) (c : ContentHash) :
    ignoredPath.block (.file p c) = [("", c)] := by
  simp [block, rootEntries, Location.visit, contentEntry]

/-- An edit that changes the order of two entries with one identity, and two files exchanged. -/
theorem hash_sensitive_besideNamesake :
    (ignoredPath.fingerprint (besideNamesake.snapshot ⟨"1"⟩) none).hash ≠
        (ignoredPath.fingerprint (besideNamesake.snapshot ⟨"3"⟩) none).hash ∧
      (besideNamesake.snapshot ⟨"1"⟩).signature ≠ (besideNamesake.snapshot ⟨"3"⟩).signature ∧
      (besideNamesake.root ⟨"1"⟩).hash? ≠ (besideNamesake.root ⟨"3"⟩).hash? ∧
      (ignoredPath.fingerprint separateFiles none).hash ≠
        (ignoredPath.fingerprint exchangedFiles none).hash := by
  obtain ⟨-, hedit, hexchange⟩ := hash_sensitive ignoredPath
  obtain ⟨hhash, hsignature, habove⟩ := hedit besideNamesake ⟨"1"⟩ ⟨"3"⟩ (by decide)
    collisionFree_besideNamesake framable_besideNamesake
  have hcontributes : besideNamesake.Contributes ignoredPath ⟨"1"⟩ := List.cons_ne_nil _ _
  have ha : ignoredPath.block (.file ⟨"/a"⟩ ⟨"1"⟩) = [("", ⟨"1"⟩)] := block_ignoredPath_file _ _
  have hb : ignoredPath.block (.file ⟨"/b"⟩ ⟨"2"⟩) = [("", ⟨"2"⟩)] := block_ignoredPath_file _ _
  have hne : ignoredPath.block (.file ⟨"/a"⟩ ⟨"1"⟩) ≠ ignoredPath.block (.file ⟨"/b"⟩ ⟨"2"⟩) := by
    rw [ha, hb]
    decide
  have hc : CollisionFree [(ignoredPath.fresh separateFiles).summaryStream,
      (ignoredPath.fresh exchangedFiles).summaryStream] := by
    simp only [Fingerprint.summaryStream, fresh, entries_separateFiles, entries_exchangedFiles]
    decide +kernel
  have htexts : ∀ t ∈ (ignoredPath.fresh separateFiles).texts ++
      (ignoredPath.fresh exchangedFiles).texts, Framable (utf8 t) := by
    simp only [Fingerprint.texts, fresh, entries_separateFiles, entries_exchangedFiles]
    decide
  refine ⟨hhash.mpr hcontributes, hsignature, ?_, ?_⟩
  · exact habove _ List.mem_cons_self
  · exact (hexchange [] [.missing ⟨"/m"⟩] [] _ _ (by rw [ha]; decide) (by rw [hb]; decide)
      separateFiles exchangedFiles rfl rfl hc htexts).mpr hne

end Fingerprinter

end BuildInputs

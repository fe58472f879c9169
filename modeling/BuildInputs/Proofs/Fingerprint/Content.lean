import BuildInputs.Fingerprint.Fingerprinter
import BuildInputs.Proofs.Snapshot.Alike
import BuildInputs.Proofs.Sorted
import Mathlib.Data.List.Forall2

/-!
# Fingerprints depend on names, kinds and contents

Two snapshots whose roots are alike, one by one, have the same entries in the same order: what is
collected of alike roots is the same up to order, and the entries of a root are sorted. Only the
absolute paths of roots can still tell them apart.

* `rootEntries_perm` — alike roots give the same entries up to order
* `fingerprint_same_of_alike` — alike snapshots give equal fingerprints
-/

namespace BuildInputs.Fingerprinter

open Location (Alike RespectsAlike flatMap_visit_perm)

/-! ## What is collected of a location -/

theorem standInHash_eq {l m : Location} (h : Alike l m) : standInHash l = standInHash m := by
  cases h <;> rfl

theorem absoluteEntry_congr {root root' : Location} (h : root.path = root'.path) :
    absoluteEntry root = absoluteEntry root' := by
  funext relative l
  unfold absoluteEntry absoluteText
  rw [h]

theorem relativeEntry_congr {root root' : Location} (h : root.kind = root'.kind) :
    relativeEntry root = relativeEntry root' := by
  funext relative l
  unfold relativeEntry
  rw [h]

theorem absoluteEntry_respectsAlike (root : Location) :
    RespectsAlike fun (relative, l) => absoluteEntry root relative l := by
  intro relative l m h
  show [_] = [_]
  rw [standInHash_eq h]

theorem relativeEntry_respectsAlike (root : Location) :
    RespectsAlike fun (relative, l) => relativeEntry root relative l := by
  intro relative l m h
  show relativeEntry root relative l = relativeEntry root relative m
  unfold relativeEntry
  rw [standInHash_eq h, h.name_eq]

theorem nameEntry_respectsAlike : RespectsAlike fun (_, l) => nameEntry l := by
  intro relative l m h
  show nameEntry l = nameEntry m
  unfold nameEntry
  rw [standInHash_eq h, h.name_eq]

theorem contentEntry_respectsAlike : RespectsAlike fun (_, l) => contentEntry l := by
  intro relative l m h
  cases h <;> rfl

theorem keptEntry_respectsAlike (keeps : String → Bool) :
    RespectsAlike fun (relative, l) => keptEntry keeps relative l := by
  intro relative l m h
  cases h <;> rfl

/-! ## What is collected of a root -/

theorem classPathEntries_perm (ignore : IgnoreList) (keeps : String → Bool) {l m : Location}
    (h : Alike l m) :
    (classPathEntries ignore keeps l).Perm (classPathEntries ignore keeps m) := by
  cases h with
  | file hn => rw [classPathEntries, classPathEntries, hn]
  | directory hn hc =>
    exact flatMap_visit_perm (keptEntry_respectsAlike keeps) (Alike.directory hn hc)
  | missing _ => exact List.Perm.refl _

/-- The entries of alike roots are the same up to order. -/
theorem rootEntries_perm (f : Fingerprinter) {l m : Location} (h : Alike l m)
    (hp : f.normalizer = .absolutePath → l.path = m.path) :
    (f.rootEntries l).Perm (f.rootEntries m) := by
  cases f with
  | absolutePath =>
    unfold rootEntries
    rw [absoluteEntry_congr (hp rfl)]
    exact flatMap_visit_perm (absoluteEntry_respectsAlike m) h
  | relativePath =>
    unfold rootEntries
    rw [relativeEntry_congr h.kind_eq]
    exact flatMap_visit_perm (relativeEntry_respectsAlike m) h
  | nameOnly => exact flatMap_visit_perm nameEntry_respectsAlike h
  | ignoredPath => exact flatMap_visit_perm contentEntry_respectsAlike h
  | classPath ignore => exact classPathEntries_perm _ _ h
  | compileClassPath ignore => exact classPathEntries_perm _ _ h

/-! ## Sorted entries -/

/-- By identity, then by hash. -/
def entryOrder : String × ContentHash → String × ContentHash → Ordering :=
  compareLex (compareOn Prod.fst) (compareOn fun a => a.2.text)

instance : Std.TransCmp entryOrder := inferInstanceAs (Std.TransCmp (compareLex _ _))

instance : Std.LawfulEqCmp entryOrder where
  eq_of_compare {a b} h := by
    obtain ⟨hfst, htext⟩ := Ordering.then_eq_eq.mp h
    have hidentity : a.1 = b.1 := Std.LawfulEqOrd.eq_of_compare hfst
    have hcontent : a.2.text = b.2.text := Std.LawfulEqOrd.eq_of_compare htext
    exact Prod.ext hidentity (congrArg ContentHash.mk hcontent)

theorem entryLE_eq : entryLE = fun a b => (entryOrder a b).isLE := rfl

theorem numberedEntries_eq_of_perm {f g : Fingerprinter} {l m : Location}
    (h : (f.rootEntries l).Perm (g.rootEntries m)) (number : Nat) :
    f.numberedEntries l number = g.numberedEntries m number := by
  unfold numberedEntries
  rw [entryLE_eq, mergeSort_eq_of_perm h]

/-- The entries of roots that are numbered from `first` on. -/
def entriesFrom (f : Fingerprinter) (first : Nat) (roots : List Location) : List FingerprintEntry :=
  (roots.zipIdx first).flatMap fun (root, number) => f.numberedEntries root number

theorem entriesFrom_cons (f : Fingerprinter) (first : Nat) (root : Location)
    (roots : List Location) :
    f.entriesFrom first (root :: roots) =
      f.numberedEntries root first ++ f.entriesFrom (first + 1) roots := by
  unfold entriesFrom
  rw [List.zipIdx_cons, List.flatMap_cons]

/-- Roots that have the same entries one by one, up to order, have the same entries. -/
theorem entriesFrom_eq_of_forall₂ {f g : Fingerprinter} {ls ms : List Location}
    (h : List.Forall₂ (fun l m => (f.rootEntries l).Perm (g.rootEntries m)) ls ms) (first : Nat) :
    f.entriesFrom first ls = g.entriesFrom first ms := by
  induction h generalizing first with
  | nil => rfl
  | cons hroot _ ih =>
    rw [entriesFrom_cons, entriesFrom_cons, ih, numberedEntries_eq_of_perm hroot]

/-- The roots are alike one by one; where absolute paths count, they also have the same paths. -/
def AlikeRoots (n : Normalizer) (l m : Location) : Prop :=
  Alike l m ∧ (n = .absolutePath → l.path = m.path)

theorem entries_eq_of_alikeRoots (f : Fingerprinter) {s t : Snapshot}
    (h : List.Forall₂ (AlikeRoots f.normalizer) s.roots t.roots) : f.entries s = f.entries t :=
  entriesFrom_eq_of_forall₂ (h.imp fun _ _ ⟨ha, hp⟩ => rootEntries_perm f ha hp) 0

theorem forall₂_alikeRoots {n : Normalizer} {ls ms : List Location}
    (h : List.Forall₂ Alike ls ms)
    (hp : n = .absolutePath → ls.map (·.path.text) = ms.map (·.path.text)) :
    List.Forall₂ (AlikeRoots n) ls ms := by
  induction h with
  | nil => exact List.Forall₂.nil
  | cons hroot _ ih =>
    simp only [List.map_cons, List.cons.injEq] at hp
    refine List.Forall₂.cons ⟨hroot, fun hn => ?_⟩ (ih fun hn => (hp hn).2)
    exact congrArg Path.mk (hp hn).1

/-! ## Alike snapshots -/

/--
**Alike snapshots have equal fingerprints.** Their roots correspond in order, with the same names
and kinds, and below them trees that differ in the order of children and in the stored paths at
most.
Only the absolute-path fingerprinter also looks at the paths of the roots.
-/
theorem fingerprint_same_of_alike (f : Fingerprinter) {s t : Snapshot}
    (h : List.Forall₂ Alike s.roots t.roots)
    (hp : f.normalizer = .absolutePath → s.roots.map (·.path.text) = t.roots.map (·.path.text)) :
    (f.fingerprint s none).same (f.fingerprint t none) = true := by
  have hentries : f.entries s = f.entries t :=
    entries_eq_of_alikeRoots f (forall₂_alikeRoots h hp)
  have hhash : (f.fresh s).hash = (f.fresh t).hash := by
    unfold Fingerprint.hash fresh
    rw [hentries]
  show (f.fresh s).same (f.fresh t) = true
  unfold Fingerprint.same
  rw [hhash]
  simp [fresh, hentries]

/-- A directory with two files of one name and a directory. -/
def sampleRoot : Location :=
  .directory ⟨"/r"⟩ [.file ⟨"/r/a"⟩ ⟨"1"⟩, .file ⟨"/r/a/"⟩ ⟨"2"⟩,
    .directory ⟨"/r/d"⟩ [.file ⟨"/r/d/a"⟩ ⟨"1"⟩, .missing ⟨"m"⟩]]

/-- The same tree with its children in another order and with other paths stored below. -/
def permutedSampleRoot : Location :=
  .directory ⟨"/r"⟩ [.directory ⟨"d"⟩ [.missing ⟨"/x/m"⟩, .file ⟨"a"⟩ ⟨"1"⟩],
    .file ⟨"a"⟩ ⟨"2"⟩, .file ⟨"/y/a"⟩ ⟨"1"⟩]

theorem sampleRoot_alike : Alike sampleRoot permutedSampleRoot := by
  refine .directory rfl ?_
  refine .cons [_, _] [] (.file (by decide)) (.cons [_] [] (.file (by decide)) ?_)
  refine .cons [] [] (.directory (by decide) ?_) .nil
  exact .cons [_] [] (.file (by decide)) (.cons [] [] (.missing (by decide)) .nil)

theorem fingerprint_same_of_alike_sampleRoot :
    List.Forall₂ Alike [sampleRoot] [permutedSampleRoot] ∧
      [sampleRoot].map (·.path.text) = [permutedSampleRoot].map (·.path.text) ∧
      (absolutePath.fingerprint ⟨[sampleRoot]⟩ none).same
        (absolutePath.fingerprint ⟨[permutedSampleRoot]⟩ none) = true := by
  have halike : List.Forall₂ Alike [sampleRoot] [permutedSampleRoot] := .cons sampleRoot_alike .nil
  have hpaths : [sampleRoot].map (·.path.text) = [permutedSampleRoot].map (·.path.text) := rfl
  exact ⟨halike, hpaths, fingerprint_same_of_alike absolutePath halike fun _ => hpaths⟩

end BuildInputs.Fingerprinter

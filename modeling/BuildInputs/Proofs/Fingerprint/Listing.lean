import BuildInputs.Proofs.Fingerprint.Sensitivity
import BuildInputs.Proofs.Snapshot.Trails

/-!
# What fingerprints list

A fingerprint lists locations. Each location at or below a root has one entry or none; whether it
has one, and under which identity, is told by its trail, its kind and its root (`identityOf?`).

1. A visit tells the root from what lies below it by an empty relative path. It is right about
   that where names are not empty, so what a location contributes is its entry in the listing
   (`contribution_root_self`, `contribution_trailText`).
2. A root contributes its listing, location by location (`rootEntries_eq_listing`).
3. The entries of each root are sorted, and roots come in their order (`pairwise_entries`).
-/

namespace BuildInputs

/-- By root, then by identity, then by content hash. -/
def FingerprintEntry.order : FingerprintEntry → FingerprintEntry → Ordering :=
  compareLex (compareOn root) (compareLex (compareOn identity) (compareOn fun e => e.content.text))

/-- A trail that does not end at its start leads from a directory, and its text is not empty. -/
theorem Location.eq_nil_or_ne_empty_of_mem_trails {root l : Location} {t : Trail}
    (hnames : ∀ c ∈ root.children, c.name ≠ "") (h : (t, l) ∈ root.trails) :
    t = [] ∧ l = root ∨ root.kind = .directory ∧ trailText t ≠ "" := by
  rw [trails_eq_cons, List.mem_cons] at h
  rcases h with heq | h
  · exact .inl (Prod.mk.inj heq)
  · obtain ⟨c, hc, u, -, rfl⟩ := mem_trailsBelow.mp h
    refine .inr ⟨?_, trailText_ne_empty (hnames c hc)⟩
    cases root with
    | directory p cs => rfl
    | file p content | missing p => exact absurd hc List.not_mem_nil

namespace Fingerprinter

variable {f : Fingerprinter} {root l : Location} {t : Trail}

/-! ## Identities -/

/--
The identity of a file on a class path: none at all for an archive, which is a root itself, and the
relative path for a file below a directory. Of the latter `reads` tells which ones are wanted.
-/
def classPathIdentity? (ignore : IgnoreList) (reads : String → Bool) (root : Location) (t : Trail) :
    Option String :=
  if t = [] then if ignore.ignores root.name then none else some ""
  else if reads (trailText t) && !ignore.ignores (trailText t) then some (trailText t)
  else none

/-- The identity that a location is listed under, if it is: it lies under `root`, with trail `t`. -/
def identityOf? (f : Fingerprinter) (root : Location) (t : Trail) (l : Location) : Option String :=
  match f with
  | absolutePath => some (if t = [] then root.path.text else (root.path.join ⟨trailText t⟩).text)
  | relativePath =>
    if t ≠ [] then some (trailText t) else if l.kind = .directory then none else some l.name
  | nameOnly => some l.name
  | ignoredPath => if l.kind = .regularFile then some "" else none
  | classPath ignore =>
    if l.kind = .regularFile then classPathIdentity? ignore (fun _ => true) root t else none
  | compileClassPath ignore =>
    if l.kind = .regularFile then
      classPathIdentity? ignore (fun r => (Path.mk r).extension? = some "class") root t
    else none

/-- The entry of a location, if it is listed. -/
def listed? (f : Fingerprinter) (root : Location) (t : Trail) (l : Location) :
    Option NamedContent :=
  (f.identityOf? root t l).map fun identity => (identity, standInHash l)

/-- The entries of the locations at and below a root. -/
def listing (f : Fingerprinter) (root : Location) : List NamedContent :=
  root.trails.filterMap fun (t, l) => f.listed? root t l

/-! ## What a location contributes -/

theorem contribution_root_self (f : Fingerprinter) (root : Location) :
    f.contribution root "" root = (f.listed? root [] root).toList := by
  cases f with
  | absolutePath => rfl
  | nameOnly => rfl
  | relativePath | ignoredPath => cases root <;> rfl
  | classPath ignore | compileClassPath ignore =>
    cases root with
    | file p content =>
      show (if ignore.ignores p.name then [] else [("", content)]) =
        ((if ignore.ignores p.name then none else some "").map fun i => (i, content)).toList
      split <;> rfl
    | directory p cs | missing p => rfl

theorem keptEntry_eq_toList (keeps : String → Bool) (relative : String) (l : Location) :
    keptEntry keeps relative l =
      ((if l.kind = .regularFile then if keeps relative then some relative else none else none).map
        fun identity => (identity, standInHash l)).toList := by
  cases l with
  | file p content =>
    by_cases h : keeps relative <;> simp [keptEntry, h, Location.kind, standInHash]
  | directory p cs | missing p => rfl

theorem contribution_trailText (f : Fingerprinter) (hroot : root.kind = .directory)
    (ht : trailText t ≠ "") (l : Location) :
    f.contribution root (trailText t) l = (f.listed? root t l).toList := by
  have hne : t ≠ [] := fun hnil => ht (hnil ▸ rfl)
  have hempty : (trailText t).isEmpty = false := by
    rwa [Bool.eq_false_iff, Ne, String.isEmpty_iff]
  unfold listed?
  cases f with
  | absolutePath => simp [contribution, absoluteEntry, absoluteText, identityOf?, hempty, hne]
  | relativePath => simp [contribution, relativeEntry, identityOf?, hempty, hne]
  | nameOnly => rfl
  | ignoredPath => cases l <;> rfl
  | classPath ignore | compileClassPath ignore =>
    simp [contribution, classPathEntry, hroot, keptEntry_eq_toList, identityOf?,
      classPathIdentity?, isClassFile, hne, and_comm]

/-- **A root contributes its listing.** -/
theorem rootEntries_eq_listing (f : Fingerprinter) (hnames : ∀ c ∈ root.children, c.name ≠ "") :
    f.rootEntries root = f.listing root := by
  unfold listing
  rw [rootEntries_eq_flatMap, Location.visit_eq_map_trails hnames, List.flatMap_map,
    List.filterMap_eq_flatMap_toList]
  refine List.flatMap_congr fun (t, l) h => ?_
  rcases Location.eq_nil_or_ne_empty_of_mem_trails hnames h with ⟨rfl, rfl⟩ | ⟨hroot, ht⟩
  · exact contribution_root_self f l
  · exact contribution_trailText f hroot ht l

/-! ## Order -/

open FingerprintEntry (named order)

theorem order_of_root_eq {a b : FingerprintEntry} (h : a.root = b.root) :
    order a b = entryOrder a.named b.named := by
  unfold order
  rw [compareLex, compareOn, h, Std.ReflOrd.compare_self]
  rfl

theorem order_of_root_lt {a b : FingerprintEntry} (h : a.root < b.root) : order a b = .lt := by
  unfold order
  rw [compareLex, compareOn, Nat.compare_eq_lt.mpr h]
  rfl

theorem pairwise_numberedEntries (f : Fingerprinter) (root : Location) (number : Nat) :
    (f.numberedEntries root number).Pairwise fun a b => (order a b).isLE := by
  unfold numberedEntries
  rw [List.pairwise_map, entryLE_eq]
  refine (pairwise_mergeSort_isLE _).imp fun {a b} hle => ?_
  have heq : order ⟨number, a.1, a.2⟩ ⟨number, b.1, b.2⟩ = entryOrder a b := order_of_root_eq rfl
  exact (congrArg Ordering.isLE heq).trans hle

/-- What relates the entries of each root, and those of one root to those of later ones. -/
theorem pairwise_entriesFrom_of {r : FingerprintEntry → FingerprintEntry → Prop}
    (hlt : ∀ {a b}, a.root < b.root → r a b) {roots : List Location}
    (hroot : ∀ root ∈ roots, ∀ number, (f.numberedEntries root number).Pairwise r) (first : Nat) :
    (f.entriesFrom first roots).Pairwise r := by
  induction roots generalizing first with
  | nil => exact .nil
  | cons root roots ih =>
    obtain ⟨hhead, htail⟩ := List.forall_mem_cons.mp hroot
    rw [entriesFrom_cons, List.pairwise_append]
    refine ⟨hhead first, ih htail (first + 1), fun a ha b hb => hlt ?_⟩
    rw [root_of_mem_numberedEntries ha]
    exact root_ge_of_mem_entriesFrom hb

/-- **Entries are sorted by root, identity and content hash.** -/
theorem pairwise_entries (f : Fingerprinter) (s : Snapshot) :
    (f.entries s).Pairwise fun a b => (order a b).isLE := by
  refine pairwise_entriesFrom_of (fun h => ?_) (fun root _ => pairwise_numberedEntries f root) 0
  exact congrArg Ordering.isLE (order_of_root_lt h)

/-! ## Entries of a snapshot -/

theorem mem_numberedEntries_iff {number : Nat} {e : FingerprintEntry} :
    e ∈ f.numberedEntries root number ↔ e.root = number ∧ e.named ∈ f.rootEntries root := by
  unfold numberedEntries
  rw [List.mem_map]
  constructor
  · rintro ⟨a, ha, rfl⟩
    exact ⟨rfl, List.mem_mergeSort.mp ha⟩
  · rintro ⟨rfl, h⟩
    exact ⟨e.named, List.mem_mergeSort.mpr h, rfl⟩

theorem mem_entries_iff {s : Snapshot} {e : FingerprintEntry} : e ∈ f.entries s ↔
    ∃ root, s.roots[e.root]? = some root ∧ e.named ∈ f.rootEntries root := by
  unfold entries
  rw [List.mem_flatMap]
  constructor
  · rintro ⟨⟨root, number⟩, hroot, hnumbered⟩
    obtain ⟨rfl, he⟩ := mem_numberedEntries_iff.mp hnumbered
    exact ⟨root, List.mem_zipIdx_iff_getElem?.mp hroot, he⟩
  · rintro ⟨root, hroot, he⟩
    exact ⟨(root, e.root), List.mem_zipIdx_iff_getElem?.mpr hroot,
      mem_numberedEntries_iff.mpr ⟨rfl, he⟩⟩

theorem numberedEntries_perm_listing (f : Fingerprinter)
    (hnames : ∀ c ∈ root.children, c.name ≠ "") (number : Nat) :
    (f.numberedEntries root number).Perm
      ((f.listing root).map fun (identity, content) => ⟨number, identity, content⟩) := by
  unfold numberedEntries
  rw [rootEntries_eq_listing f hnames]
  exact (List.mergeSort_perm _ _).map _

/--
**Fingerprints list exactly the contributing locations.** If nothing directly in a root has an empty
name, the entries are sorted by root, identity and content hash. As often as they occur, they are
the entries of the locations at and below the roots, which bear the number of their root.
-/
theorem entries_exact (f : Fingerprinter) {s : Snapshot}
    (hnames : ∀ root ∈ s.roots, ∀ c ∈ root.children, c.name ≠ "") :
    (f.fingerprint s none).entries.Pairwise (fun a b => (order a b).isLE) ∧
      (f.fingerprint s none).entries.Perm (s.roots.zipIdx.flatMap fun (root, number) =>
        (f.listing root).map fun (identity, content) => ⟨number, identity, content⟩) := by
  refine ⟨pairwise_entries f s, List.Perm.flatMap_left _ fun (root, number) h => ?_⟩
  exact numberedEntries_perm_listing f (hnames root (List.fst_mem_of_mem_zipIdx h)) number

/-- A directory in which two files have one name, and a place where nothing is. -/
def namesakes : Snapshot := ⟨[sampleRoot, .missing ⟨"/m/gone"⟩]⟩

/-- Both files are listed under their common name, and the directory itself is not. -/
theorem entries_exact_namesakes :
    (∀ root ∈ namesakes.roots, ∀ c ∈ root.children, c.name ≠ "") ∧
      (relativePath.fingerprint namesakes none).entries.Perm
        [⟨0, "a", ⟨"1"⟩⟩, ⟨0, "a", ⟨"2"⟩⟩, ⟨0, "d", .ofBytes (Digest.utf8 "stratum:dir")⟩,
          ⟨0, "d/a", ⟨"1"⟩⟩, ⟨0, "d/m", .ofBytes (Digest.utf8 "stratum:missing")⟩,
          ⟨1, "gone", .ofBytes (Digest.utf8 "stratum:missing")⟩] := by
  have hnames : ∀ root ∈ namesakes.roots, ∀ c ∈ root.children, c.name ≠ "" := by decide
  refine ⟨hnames, (entries_exact relativePath hnames).2.trans ?_⟩
  exact List.Perm.of_eq (by decide +kernel)

end Fingerprinter

end BuildInputs

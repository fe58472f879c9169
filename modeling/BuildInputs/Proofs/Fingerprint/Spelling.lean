import BuildInputs.Proofs.Fingerprint.Summary
import BuildInputs.Proofs.Snapshot.Faithful

/-!
# Spellings of paths

Snapshots are compared path by path, and paths step by step: `/r` and `/r/` are the same path. Their
texts still differ, and texts are what signatures and absolute-path fingerprints are made of. Names
are steps, hence the same for both, unless the path ends in no name: `.` and `./` are the same path
and have different names.

So equal snapshots can be told apart by the spellings of their roots' paths, and by nothing else:

1. Below the roots spellings do not show, since the hashes of directories are compared too, and
   they cover the names of children (`alike_of_same`).
2. A root that only changes its path keeps its entries exactly where the fingerprinter sees no
   difference between the two spellings (`rootEntries_withPath_perm_iff`).
3. Entries carry the number of their root, so they are compared root by root
   (`entriesFrom_eq_iff`).
-/

namespace BuildInputs

open Digest

/-! ## Paths with one name -/

namespace Path

theorem fileName?_eq_of_same {p q : Path} (h : p.same q = true) : p.fileName? = q.fileName? := by
  have hsteps : p.steps = q.steps := of_decide_eq_true h
  unfold fileName?
  rw [hsteps]

/-- **Spellings of a path that ends in a name have that name.** -/
theorem name_eq_of_same {p q : Path} (h : p.same q = true) (hp : p.fileName?.isSome = true) :
    p.name = q.name := by
  obtain ⟨s, hs⟩ := Option.isSome_iff_exists.mp hp
  have hq : q.fileName? = some s := fileName?_eq_of_same h ▸ hs
  unfold name
  rw [hs, hq, Option.getD_some, Option.getD_some]

end Path

/-! ## Equal locations -/

namespace Location

/-- The same location with another path of its own. -/
def withPath (q : Path) : Location → Location
  | file _ content => file q content
  | directory _ cs => directory q cs
  | missing _ => missing q

theorem withPath_self {q : Path} {l : Location} (h : l.path = q) : l.withPath q = l := by
  cases l <;> cases h <;> rfl

theorem kind_withPath (q : Path) (l : Location) : (l.withPath q).kind = l.kind := by
  cases l <;> rfl

theorem path_withPath (q : Path) (l : Location) : (l.withPath q).path = q := by
  cases l <;> rfl

theorem visit_eq_cons (l : Location) : l.visit = ("", l) :: visitChildren "" l.children :=
  visitFrom_eq_cons "" l

theorem visit_withPath (q : Path) (l : Location) :
    (l.withPath q).visit = ("", l.withPath q) :: visitChildren "" l.children := by
  rw [visit_eq_cons]
  cases l <;> rfl

theorem same_eq_true {l m : Location} (h : l.same m = true) :
    l.kind = m.kind ∧ l.path.same m.path = true ∧ l.hash? = m.hash? := by
  cases l <;> cases m <;> simp only [same, Bool.and_eq_true, decide_eq_true_eq] at h
  case file.file => exact ⟨rfl, h.1, congrArg some h.2⟩
  case directory.directory => exact ⟨rfl, h.1.1, by rw [hash?, hash?, h.2]⟩
  case missing.missing => exact ⟨rfl, h, rfl⟩
  all_goals cases h

theorem forall₂_same_of_sameList : ∀ {ls ms : List Location}, sameList ls ms = true →
    List.Forall₂ (fun l m => l.same m = true) ls ms
  | [], [], _ => .nil
  | [], _ :: _, h => by simp only [sameList] at h; cases h
  | _ :: _, [], h => by simp only [sameList] at h; cases h
  | l :: ls, m :: ms, h => by
    rw [sameList, Bool.and_eq_true] at h
    exact .cons h.1 (forall₂_same_of_sameList h.2)

/-- **Equal locations are alike but for the spelling of their own paths.** -/
theorem alike_of_same {known : List Bytes} (hc : CollisionFree known) {l m : Location}
    (hl : l.Hashed known) (hm : m.Hashed known) (h : l.same m = true) :
    Alike (l.withPath m.path) m := by
  obtain ⟨hkind, -, hhash⟩ := same_eq_true h
  cases l <;> cases m <;> cases hkind
  case file.file.refl => exact Option.some.inj hhash ▸ .file rfl
  case directory.directory.refl =>
    exact .directory rfl (alikeChildren_of_hash?_eq hc hl hm hhash)
  case missing.missing.refl => exact .missing rfl

end Location

namespace Fingerprinter

open Location (Alike withPath visit_withPath visit_eq_cons visitChildren)

/-! ## Absolute paths -/

/-- Everything at and below a location with what stands for it. -/
def located (l : Location) : Collected := l.visit.map fun (relative, x) => (relative, standInHash x)

theorem standInHash_withPath (q : Path) (l : Location) :
    standInHash (l.withPath q) = standInHash l := by
  cases l <;> rfl

theorem located_withPath (q : Path) (l : Location) : located (l.withPath q) = located l := by
  have hroot : ("", standInHash (l.withPath q)) = ("", standInHash l) := by
    rw [standInHash_withPath]
  unfold located
  rw [visit_withPath, visit_eq_cons, List.map_cons, List.map_cons]
  exact congrArg (· :: _) hroot

theorem empty_mem_located (l : Location) : "" ∈ (located l).map Prod.fst := by
  unfold located
  rw [visit_eq_cons]
  exact List.mem_cons_self

theorem rootEntries_absolutePath (l : Location) :
    absolutePath.rootEntries l = (located l).map (Prod.map (absoluteText l) id) := by
  unfold located
  rw [List.map_map, List.map_eq_flatMap]
  rfl

theorem absoluteText_of_isAbsolute {root : Location} {relative : String}
    (h : (Path.mk relative).isAbsolute = true) : absoluteText root relative = relative := by
  have hne : relative.isEmpty = false := by
    rw [Bool.eq_false_iff, Ne, String.isEmpty_iff]
    rintro rfl
    cases h
  unfold absoluteText Path.join
  rw [hne, if_neg (by decide), if_pos h]

/-- What lies below a root begins with the path of the root. -/
theorem isPrefix_absoluteText {root : Location} {relative : String}
    (h : (Path.mk relative).isAbsolute = false) :
    root.path.text.toList <+: (absoluteText root relative).toList := by
  unfold absoluteText
  split
  · exact List.prefix_rfl
  · unfold Path.join
    rw [h, if_neg (by decide)]
    split
    · rw [String.toList_append]
      exact List.prefix_append _ _
    · rw [String.toList_append, String.toList_append, List.append_assoc]
      exact List.prefix_append _ _

theorem path_isPrefix_of_subset {l m : Location} {rs ss : List String} (hrs : "" ∈ rs)
    (hss : ∀ r ∈ ss, (Path.mk r).isAbsolute = false)
    (h : rs.map (absoluteText l) ⊆ ss.map (absoluteText m)) :
    m.path.text.toList <+: l.path.text.toList := by
  obtain ⟨r, hr, htext⟩ := List.mem_map.mp (h (List.mem_map_of_mem hrs))
  have hroot : absoluteText l "" = l.path.text := rfl
  rw [← hroot, ← htext]
  exact isPrefix_absoluteText (hss r hr)

/-- **The texts at and below a root tell its path**, which is the first part of all of them. -/
theorem path_eq_of_perm {l m : Location} {rs ss : List String} (hrs : "" ∈ rs) (hss : "" ∈ ss)
    (hrel : ∀ r ∈ rs ++ ss, (Path.mk r).isAbsolute = false)
    (h : (rs.map (absoluteText l)).Perm (ss.map (absoluteText m))) : l.path = m.path := by
  have hle := path_isPrefix_of_subset hrs (fun r hr => hrel r (List.mem_append_right _ hr)) h.subset
  have hge := path_isPrefix_of_subset hss (fun r hr => hrel r (List.mem_append_left _ hr))
    h.symm.subset
  have htext : l.path.text.toList = m.path.text.toList :=
    hge.eq_of_length (Nat.le_antisymm hge.length_le hle.length_le)
  exact congrArg Path.mk (String.toList_inj.mp htext)

/-- Where two functions agree, a permutation of their images leaves the rest permuted. -/
theorem perm_map_filter_of_perm_map {α β : Type} {g g' : α → β} {as : List α} (agree : α → Bool)
    (hagree : ∀ a, agree a = true → g a = g' a) (h : (as.map g).Perm (as.map g')) :
    ((as.filter (!agree ·)).map g).Perm ((as.filter (!agree ·)).map g') := by
  have hsplit (g : α → β) :
      (as.map g).Perm ((as.filter agree).map g ++ (as.filter (!agree ·)).map g) := by
    rw [← List.map_append]
    exact ((List.filter_append_perm agree as).map g).symm
  have hsame : (as.filter agree).map g = (as.filter agree).map g' :=
    List.map_congr_left fun a ha => hagree a (List.mem_filter.mp ha).2
  have h := (hsplit g).symm.trans (h.trans (hsplit g'))
  rw [hsame] at h
  exact (List.perm_append_left_iff _).mp h

/-- The texts at and below a root, without the names that are absolute paths themselves. -/
def relatives (l : Location) : List String :=
  ((located l).map Prod.fst).filter fun r => !(Path.mk r).isAbsolute

theorem empty_mem_relatives (l : Location) : "" ∈ relatives l :=
  List.mem_filter.mpr ⟨empty_mem_located l, rfl⟩

theorem isAbsolute_of_mem_relatives {l : Location} {r : String} (h : r ∈ relatives l) :
    (Path.mk r).isAbsolute = false := by
  simpa using (List.mem_filter.mp h).2

theorem path_eq_of_absoluteEntries_perm {q : Path} {l : Location}
    (h : (absolutePath.rootEntries l).Perm (absolutePath.rootEntries (l.withPath q))) :
    l.path = q := by
  rw [rootEntries_absolutePath, rootEntries_absolutePath, located_withPath] at h
  have htexts (root : Location) : ((located l).map (Prod.map (absoluteText root) id)).map Prod.fst =
      ((located l).map Prod.fst).map (absoluteText root) := by
    rw [List.map_map, List.map_map]
    rfl
  have h := h.map Prod.fst
  rw [htexts, htexts] at h
  -- a name that is an absolute path stands for itself below any root
  have hrest := perm_map_filter_of_perm_map (fun r => (Path.mk r).isAbsolute)
    (fun r hr => by rw [absoluteText_of_isAbsolute hr, absoluteText_of_isAbsolute hr]) h
  have hempty := empty_mem_relatives l
  have hpath := path_eq_of_perm hempty hempty
    (fun r hr => isAbsolute_of_mem_relatives ((List.mem_append.mp hr).elim id id)) hrest
  rwa [Location.path_withPath] at hpath

/-! ## What a fingerprinter sees of a spelling -/

/-- The fingerprinter sees no difference between two paths of a root of the given kind. -/
def SpelledAlike (f : Fingerprinter) (kind : FileKind) (p q : Path) : Prop :=
  match f with
  | absolutePath => p = q
  | relativePath => kind ≠ .directory → p.name = q.name
  | nameOnly => p.name = q.name
  | ignoredPath => True
  | classPath ignore | compileClassPath ignore =>
    kind = .regularFile → ignore.ignores p.name = ignore.ignores q.name

/-- What is collected of a location with another path differs in its own entries at most. -/
theorem flatMap_visit_withPath_perm_iff {β : Type} (collect : String × Location → List β) (q : Path)
    (l : Location) :
    (l.visit.flatMap collect).Perm ((l.withPath q).visit.flatMap collect) ↔
      (collect ("", l)).Perm (collect ("", l.withPath q)) := by
  rw [visit_withPath, visit_eq_cons, List.flatMap_cons, List.flatMap_cons]
  exact List.perm_append_right_iff _

theorem named_perm_iff {name name' : String} {content : ContentHash} :
    [(name, content)].Perm [(name', content)] ↔ name = name' := by
  rw [List.singleton_perm_singleton, Prod.mk.injEq, and_iff_left rfl]

theorem relativeEntries_withPath_perm_iff (q : Path) (l : Location) :
    (relativePath.rootEntries l).Perm (relativePath.rootEntries (l.withPath q)) ↔
      SpelledAlike relativePath l.kind l.path q := by
  have hentries : relativePath.rootEntries (l.withPath q) =
      (l.withPath q).visit.flatMap fun (relative, x) => relativeEntry l relative x := by
    unfold rootEntries
    rw [relativeEntry_congr (Location.kind_withPath q l)]
  rw [hentries]
  refine Iff.trans (flatMap_visit_withPath_perm_iff
    (fun (relative, x) => relativeEntry l relative x) q l) ?_
  show (relativeEntry l "" l).Perm (relativeEntry l "" (l.withPath q)) ↔
    (l.kind ≠ .directory → l.path.name = q.name)
  cases l with
  | file p content => exact named_perm_iff.trans ⟨fun h _ => h, fun h => h nofun⟩
  | directory p cs => exact iff_of_true (List.Perm.refl _) fun h => absurd rfl h
  | missing p => exact named_perm_iff.trans ⟨fun h _ => h, fun h => h nofun⟩

theorem nameEntries_withPath_perm_iff (q : Path) (l : Location) :
    (nameOnly.rootEntries l).Perm (nameOnly.rootEntries (l.withPath q)) ↔ l.path.name = q.name := by
  refine (flatMap_visit_withPath_perm_iff (fun (_, x) => nameEntry x) q l).trans ?_
  show (nameEntry l).Perm (nameEntry (l.withPath q)) ↔ _
  unfold nameEntry
  rw [standInHash_withPath, named_perm_iff]
  cases l <;> exact Iff.rfl

theorem contentEntries_withPath_perm (q : Path) (l : Location) :
    (ignoredPath.rootEntries l).Perm (ignoredPath.rootEntries (l.withPath q)) := by
  refine (flatMap_visit_withPath_perm_iff (fun (_, x) => contentEntry x) q l).mpr ?_
  cases l <;> exact List.Perm.refl _

theorem classPathEntries_withPath_perm_iff (ignore : IgnoreList) (keeps : String → Bool) (q : Path)
    (l : Location) :
    (classPathEntries ignore keeps l).Perm (classPathEntries ignore keeps (l.withPath q)) ↔
      (l.kind = .regularFile → ignore.ignores l.path.name = ignore.ignores q.name) := by
  cases l with
  | file p content =>
    refine Iff.trans ?_ (forall_prop_of_true rfl).symm
    show (if ignore.ignores p.name then [] else [("", content)]).Perm
      (if ignore.ignores q.name then [] else [("", content)]) ↔
        ignore.ignores p.name = ignore.ignores q.name
    cases ignore.ignores p.name <;> cases ignore.ignores q.name <;> simp
  | directory p cs =>
    have hperm := (flatMap_visit_withPath_perm_iff (fun (relative, x) => keptEntry keeps relative x)
      q (.directory p cs)).mpr (List.Perm.refl _)
    exact iff_of_true hperm fun h => (by cases h)
  | missing p => exact iff_of_true (List.Perm.refl _) fun h => (by cases h)

/-- **A spelling shows in the entries of a root exactly where the fingerprinter sees it.** -/
theorem rootEntries_withPath_perm_iff (f : Fingerprinter) (q : Path) (l : Location) :
    (f.rootEntries l).Perm (f.rootEntries (l.withPath q)) ↔ SpelledAlike f l.kind l.path q := by
  cases f with
  | absolutePath =>
    constructor
    · exact path_eq_of_absoluteEntries_perm
    · intro h
      rw [Location.withPath_self h]
  | relativePath => exact relativeEntries_withPath_perm_iff q l
  | nameOnly => exact nameEntries_withPath_perm_iff q l
  | ignoredPath => exact iff_of_true (contentEntries_withPath_perm q l) trivial
  | classPath ignore => exact classPathEntries_withPath_perm_iff _ _ q l
  | compileClassPath ignore => exact classPathEntries_withPath_perm_iff _ _ q l

/-! ## Root by root -/

theorem filter_root_entriesFrom_cons (f : Fingerprinter) (first : Nat) (l : Location)
    (ls : List Location) :
    (f.entriesFrom first (l :: ls)).filter (fun e => e.root = first) =
      f.numberedEntries l first := by
  rw [entriesFrom_cons, List.filter_append, List.filter_eq_self.mpr, List.filter_eq_nil_iff.mpr,
    List.append_nil]
  · intro e he
    have := root_ge_of_mem_entriesFrom he
    rw [decide_eq_true_eq]
    omega
  · intro e he
    rw [decide_eq_true_eq]
    exact root_of_mem_numberedEntries he

/-- **Equal numbers of roots have the same entries exactly when each root has them.** -/
theorem entriesFrom_eq_iff {f : Fingerprinter} : ∀ {ls ms : List Location},
    ls.length = ms.length → ∀ first, f.entriesFrom first ls = f.entriesFrom first ms ↔
      List.Forall₂ (fun l m => (f.rootEntries l).Perm (f.rootEntries m)) ls ms
  | [], [], _, _ => iff_of_true rfl .nil
  | l :: ls, m :: ms, hlength, first => by
    refine ⟨fun h => ?_, fun h => entriesFrom_eq_of_forall₂ h first⟩
    have hroot : f.numberedEntries l first = f.numberedEntries m first := by
      rw [← filter_root_entriesFrom_cons, h, filter_root_entriesFrom_cons]
    rw [entriesFrom_cons, entriesFrom_cons, hroot] at h
    have hblock : f.block l = f.block m := by
      rw [← map_named_numberedEntries f l first, hroot, map_named_numberedEntries]
    exact .cons (block_eq_iff.mp hblock)
      ((entriesFrom_eq_iff (Nat.succ.inj hlength) (first + 1)).mp (List.append_cancel_left h))

theorem fingerprint_same_iff (f : Fingerprinter) (s t : Snapshot) :
    (f.fingerprint s none).same (f.fingerprint t none) = true ↔ f.entries s = f.entries t := by
  show (f.fresh s).same (f.fresh t) = true ↔ _
  unfold Fingerprint.same
  constructor
  · intro h
    exact of_decide_eq_true (Bool.and_eq_true _ _ ▸ h).2
  · intro h
    unfold Fingerprint.hash fresh
    simp [h]

/-! ## Equal snapshots -/

variable {known : List Bytes}

theorem forall₂_iff_of_zip {α β : Type} {R S : α → β → Prop} {as : List α} {bs : List β}
    (h : ∀ a b, (a, b) ∈ as.zip bs → (R a b ↔ S a b)) :
    List.Forall₂ R as bs ↔ List.Forall₂ S as bs := by
  rw [List.forall₂_iff_zip, List.forall₂_iff_zip]
  exact and_congr_right fun _ =>
    ⟨fun hall _ _ hmem => (h _ _ hmem).mp (hall hmem),
      fun hall _ _ hmem => (h _ _ hmem).mpr (hall hmem)⟩

theorem entries_perm_iff_of_same (f : Fingerprinter) (hc : CollisionFree known) {l m : Location}
    (hl : l.Hashed known) (hm : m.Hashed known) (h : l.same m = true) :
    (f.rootEntries l).Perm (f.rootEntries m) ↔ SpelledAlike f l.kind l.path m.path := by
  have hmoved : (f.rootEntries (l.withPath m.path)).Perm (f.rootEntries m) :=
    rootEntries_perm f (Location.alike_of_same hc hl hm h) fun _ => Location.path_withPath _ _
  rw [← rootEntries_withPath_perm_iff]
  exact ⟨fun hperm => hperm.trans hmoved.symm, fun hperm => hperm.trans hmoved⟩

theorem spelledAlike_of_name_eq {f : Fingerprinter} (hf : f.normalizer ≠ .absolutePath)
    {kind : FileKind} {p q : Path} (h : p.name = q.name) : SpelledAlike f kind p q := by
  cases f with
  | absolutePath => exact absurd rfl hf
  | relativePath => exact fun _ => h
  | nameOnly => exact h
  | ignoredPath => trivial
  | classPath ignore => exact fun _ => congrArg ignore.ignores h
  | compileClassPath ignore => exact fun _ => congrArg ignore.ignores h

end Fingerprinter

namespace Snapshot

theorem signature_eq_of_same {s t : Snapshot} (hsame : s.same t = true)
    (hpaths : List.Forall₂ (fun l m => l.path = m.path) s.roots t.roots) :
    s.signature = t.signature := by
  have hlabels {ls ms : List Location} (h : List.Forall₂ (fun l m => l.same m = true) ls ms)
      (hpaths : List.Forall₂ (fun l m => l.path = m.path) ls ms) :
      ls.map Location.rootLabel = ms.map Location.rootLabel := by
    induction h with
    | nil => rfl
    | cons hroot _ ih =>
      obtain ⟨hpath, hpaths⟩ := List.forall₂_cons.mp hpaths
      obtain ⟨hkind, -, hhash⟩ := Location.same_eq_true hroot
      rw [List.map_cons, List.map_cons, ih hpaths]
      unfold Location.rootLabel Location.hashText
      rw [hkind, hpath, hhash]
  show ContentHash.ofBytes s.signatureStream = ContentHash.ofBytes t.signatureStream
  rw [signatureStream_eq, signatureStream_eq,
    hlabels (Location.forall₂_same_of_sameList hsame) hpaths]

end Snapshot

namespace Fingerprinter

/--
**Equal snapshots are told apart by the spellings of their roots' paths only.** Their signatures are
equal exactly when the paths have the same texts, and so are their absolute-path fingerprints. Any
other fingerprinter makes equal fingerprints of them if the paths of the roots end in names.
-/
theorem fingerprint_same_iff_spelledAlike {s t : Snapshot} (hsame : s.same t = true)
    (hc : CollisionFree (s.streams ++ t.streams))
    (htexts : ∀ x ∈ s.texts ++ t.texts, Framable (utf8 x)) :
    (s.signature = t.signature ↔ List.Forall₂ (fun l m => l.path = m.path) s.roots t.roots) ∧
      ∀ f : Fingerprinter,
        ((f.fingerprint s none).same (f.fingerprint t none) = true ↔
          List.Forall₂ (fun l m => SpelledAlike f l.kind l.path m.path) s.roots t.roots) ∧
        (f.normalizer ≠ .absolutePath → (∀ l ∈ s.roots, l.path.fileName?.isSome = true) →
          (f.fingerprint s none).same (f.fingerprint t none) = true) := by
  have hs : Snapshot.Hashed (s.streams ++ t.streams) s :=
    ⟨List.subset_append_left _ _, fun x hx => htexts x (List.mem_append_left _ hx)⟩
  have ht : Snapshot.Hashed (s.streams ++ t.streams) t :=
    ⟨List.subset_append_right _ _, fun x hx => htexts x (List.mem_append_right _ hx)⟩
  have hroots := Location.forall₂_same_of_sameList hsame
  have hpair {l m : Location} (hmem : (l, m) ∈ s.roots.zip t.roots) : l.same m = true :=
    (List.forall₂_iff_zip.mp hroots).2 hmem
  constructor
  · constructor
    · intro h
      exact (Snapshot.forall₂_alike_of_signature_eq hc hs ht h).imp fun _ _ ⟨_, hpath⟩ => hpath
    · exact Snapshot.signature_eq_of_same hsame
  · intro f
    have hiff : (f.fingerprint s none).same (f.fingerprint t none) = true ↔
        List.Forall₂ (fun l m => SpelledAlike f l.kind l.path m.path) s.roots t.roots := by
      rw [fingerprint_same_iff]
      refine (entriesFrom_eq_iff hroots.length_eq 0).trans (forall₂_iff_of_zip fun l m hmem => ?_)
      obtain ⟨hl, hm⟩ := List.of_mem_zip hmem
      exact entries_perm_iff_of_same f hc (hs.root l hl) (ht.root m hm) (hpair hmem)
    refine ⟨hiff, fun hf hnames => hiff.mpr ?_⟩
    refine List.forall₂_iff_zip.mpr ⟨hroots.length_eq, fun {l m} hmem => ?_⟩
    have hname := hnames l (List.of_mem_zip hmem).1
    have hsame := (Location.same_eq_true (hpair hmem)).2.1
    exact spelledAlike_of_name_eq hf (Path.name_eq_of_same hsame hname)

/-- A directory with a file, and the same directory with slashes and dots in its paths. -/
def plainRoot : Location := .directory ⟨"/r"⟩ [.file ⟨"/r/a"⟩ ⟨"1"⟩]

def respelledRoot : Location := .directory ⟨"/r/"⟩ [.file ⟨"/r/./a"⟩ ⟨"1"⟩]

theorem same_respelledRoot : (Snapshot.mk [plainRoot]).same ⟨[respelledRoot]⟩ = true := by
  have hrecords : Location.childRecords [.file ⟨"/r/a"⟩ ⟨"1"⟩] =
      Location.childRecords [.file ⟨"/r/./a"⟩ ⟨"1"⟩] := by
    decide
  simp only [Snapshot.same, Location.sameList, plainRoot, respelledRoot, Location.same, hrecords]
  decide

/-- The relative-path fingerprints are equal, the absolute-path fingerprints are not. -/
theorem fingerprint_same_iff_spelledAlike_respelledRoot :
    (Snapshot.mk [plainRoot]).same ⟨[respelledRoot]⟩ = true ∧
      CollisionFree ((Snapshot.mk [plainRoot]).streams ++ (Snapshot.mk [respelledRoot]).streams) ∧
      (∀ x ∈ (Snapshot.mk [plainRoot]).texts ++ (Snapshot.mk [respelledRoot]).texts,
        Framable (utf8 x)) ∧
      (relativePath.fingerprint ⟨[plainRoot]⟩ none).same
        (relativePath.fingerprint ⟨[respelledRoot]⟩ none) = true ∧
      (absolutePath.fingerprint ⟨[plainRoot]⟩ none).same
        (absolutePath.fingerprint ⟨[respelledRoot]⟩ none) = false := by
  have hc : CollisionFree
      ((Snapshot.mk [plainRoot]).streams ++ (Snapshot.mk [respelledRoot]).streams) := by
    -- sorting does not evaluate by itself
    simp only [Snapshot.streams, Snapshot.signatureStream, plainRoot, respelledRoot,
      Location.streams, Location.streamsBelow, directoryStream, List.flatMap_cons, List.flatMap_nil,
      Location.signaturePieces, Location.hash?, directoryHash, Location.childRecords,
      ChildRecord.sort, List.mergeSort_singleton]
    decide +kernel
  have htexts : ∀ x ∈ (Snapshot.mk [plainRoot]).texts ++ (Snapshot.mk [respelledRoot]).texts,
      Framable (utf8 x) := by
    decide
  have hiff := (fingerprint_same_iff_spelledAlike same_respelledRoot hc htexts).2
  refine ⟨same_respelledRoot, hc, htexts, ?_, ?_⟩
  · exact (hiff relativePath).2 (by decide) (by decide)
  · rw [Bool.eq_false_iff, Ne, (hiff absolutePath).1]
    intro h
    cases h with
    | cons hroot _ =>
      have hpath : (⟨"/r"⟩ : Path) = ⟨"/r/"⟩ := hroot
      exact absurd hpath (by decide)

/-- An empty directory has another fingerprint when its path is written with a slash at the end. -/
theorem fingerprint_not_same_trailingSlash :
    (Snapshot.mk [.directory ⟨"/r"⟩ []]).same ⟨[.directory ⟨"/r/"⟩ []]⟩ = true ∧
      (Snapshot.mk [.directory ⟨"/r"⟩ []]).signature ≠
        (Snapshot.mk [.directory ⟨"/r/"⟩ []]).signature ∧
      (absolutePath.fingerprint ⟨[.directory ⟨"/r"⟩ []]⟩ none).hash ≠
        (absolutePath.fingerprint ⟨[.directory ⟨"/r/"⟩ []]⟩ none).hash ∧
      (absolutePath.fingerprint ⟨[.directory ⟨"/r"⟩ []]⟩ none).same
        (absolutePath.fingerprint ⟨[.directory ⟨"/r/"⟩ []]⟩ none) = false := by
  have hentries (p : Path) : absolutePath.entries ⟨[.directory p []]⟩ =
      [⟨0, p.text, .ofBytes (utf8 "stratum:dir")⟩] := by
    simp [entries, numberedEntries, rootEntries, Location.visit, Location.visitChildren,
      absoluteEntry, absoluteText, standInHash, Location.path]
  refine ⟨?_, ?_, ?_, ?_⟩
  · simp only [Snapshot.same, Location.sameList, Location.same]
    decide
  · simp only [Snapshot.signature, List.flatMap_cons, List.flatMap_nil, Location.signaturePieces,
      Location.hash?, directoryHash, Location.childRecords, ChildRecord.sort, List.mergeSort_nil]
    decide +kernel
  · simp only [Fingerprint.hash, fingerprint, fresh, hentries]
    decide +kernel
  · rw [Bool.eq_false_iff, Ne, fingerprint_same_iff, hentries, hentries]
    decide

end Fingerprinter

end BuildInputs

import BuildInputs.Proofs.Fingerprint.Listing

/-!
# Earlier roots hide later ones

A class path is searched root by root, and the first file with a relative path counts. A look-up in
a fingerprint takes the first entry with an identity. That is the entry of the file that counts.

1. Entries come root by root, so no entry with an identity has an earlier root than the one that is
   found (`root_le_of_find?_eq_some`).
2. Entries with an identity that is not empty are those of files below directories, and the identity
   is the relative path of the file (`mem_rootEntries_iff`).
3. No two locations below a root have one relative path, so no two entries of a root have one
   identity (`nodup_map_rootEntries`, `nodup_map_entries`).
-/

namespace BuildInputs

/-- What is read of a class path: class files only by compilers, everything by programs. -/
def Normalizer.reads : Normalizer → String → Bool
  | .compileClassPath => fun r => (Path.mk r).extension? = some "class"
  | _ => fun _ => true

namespace Fingerprinter

open Location (properNames_below)

variable {f : Fingerprinter} {n : Normalizer} {ignore : IgnoreList} {s : Snapshot}
  {root l : Location} {t : Trail} {i : String} {c : ContentHash} {e : FingerprintEntry}

/-! ## Look-ups -/

/-- A look-up finds an entry with the identity, and no entry with it has an earlier root. -/
theorem root_le_of_find?_eq_some (h : (f.fresh s).find? i = some e) :
    e.identity = i ∧ e ∈ f.entries s ∧
      ∀ x ∈ f.entries s, x.identity = i → e.root ≤ x.root := by
  obtain ⟨hidentity, before, after, hsplit, hbefore⟩ := List.find?_eq_some_iff_append.mp h
  have hentries : f.entries s = before ++ e :: after := hsplit
  have hsorted : (before ++ e :: after).Pairwise fun a b => a.root ≤ b.root := by
    rw [← hentries]
    refine pairwise_entriesFrom_of Nat.le_of_lt (fun root _ number => ?_) 0
    exact List.pairwise_map.mpr (List.pairwise_of_forall fun _ _ => le_rfl)
  rw [hentries]
  refine ⟨of_decide_eq_true hidentity, List.mem_append_right _ List.mem_cons_self, ?_⟩
  intro x hx hxi
  rcases List.mem_append.mp hx with hfront | hrest
  · have hother := hbefore x hfront
    rw [hxi, decide_eq_true rfl] at hother
    cases hother
  · rcases List.mem_cons.mp hrest with rfl | hafter
    · exact le_rfl
    · exact List.rel_of_pairwise_cons (List.pairwise_append.mp hsorted).2.1 hafter

/-! ## Files of a root -/

/-- The root is a directory, and a file in it with the relative path is read and not ignored. -/
def ContributesFile (n : Normalizer) (ignore : IgnoreList) (root : Location) (i : String)
    (c : ContentHash) : Prop :=
  root.kind = .directory ∧ (n.reads i && !ignore.ignores i) = true ∧
    ∃ t p, (t, Location.file p c) ∈ root.trails ∧ trailText t = i

/--
The entry is that of the file with the relative path in the first root that has one, and this root
has no other entry with the identity.
-/
structure IsFirstFile (n : Normalizer) (ignore : IgnoreList) (s : Snapshot) (i : String)
    (e : FingerprintEntry) : Prop where
  file : ∃ root, s.roots[e.root]? = some root ∧
    ∀ c, ContributesFile n ignore root i c ↔ c = e.content
  first : ∀ number root, s.roots[number]? = some root → number < e.root →
    ∀ c, ¬ ContributesFile n ignore root i c
  only : ((ofNormalizer n ignore).entries s).filter (fun x => x.root = e.root ∧ x.identity = i) =
    [e]

section

variable (hn : n = .classPath ∨ n = .compileClassPath)

include hn

theorem identityOf?_ofNormalizer : (ofNormalizer n ignore).identityOf? root t l =
    if l.kind = .regularFile then classPathIdentity? ignore n.reads root t else none := by
  rcases hn with rfl | rfl <;> rfl

/-- On a class path the identity of an entry is a relative path. -/
theorem trailText_of_listed?_eq_some {e : NamedContent}
    (h : (ofNormalizer n ignore).listed? root t l = some e) : trailText t = e.1 := by
  obtain ⟨i, hi, rfl⟩ := Option.map_eq_some_iff.mp h
  rw [identityOf?_ofNormalizer hn] at hi
  split at hi
  · by_cases hnil : t = []
    · rw [classPathIdentity?, if_pos hnil] at hi
      split at hi
      · cases hi
      · rw [hnil]
        exact Option.some.inj hi
    · rw [classPathIdentity?, if_neg hnil] at hi
      split at hi
      · exact Option.some.inj hi
      · cases hi
  · cases hi

theorem listed?_eq_some_iff (ht : trailText t ≠ "") :
    (ofNormalizer n ignore).listed? root t l = some (i, c) ↔
      trailText t = i ∧ (n.reads i && !ignore.ignores i) = true ∧ ∃ p, l = .file p c := by
  have hne : t ≠ [] := fun hnil => ht (hnil ▸ rfl)
  unfold listed?
  rw [identityOf?_ofNormalizer hn, classPathIdentity?, if_neg hne]
  cases l with
  | file p content =>
    have hkind : (Location.file p content).kind = .regularFile := rfl
    rw [if_pos hkind, Option.map_eq_some_iff]
    constructor
    · rintro ⟨_, htext, heq⟩
      obtain ⟨hread, htext⟩ := Option.ite_none_right_eq_some.mp htext
      cases htext
      cases heq
      exact ⟨rfl, hread, p, rfl⟩
    · rintro ⟨rfl, hread, _, heq⟩
      cases heq
      exact ⟨_, if_pos hread, rfl⟩
  | directory p cs | missing p => simp [Location.kind]

/-- **A file has an entry under its relative path** if it is read and not ignored. -/
theorem mem_rootEntries_iff (hnames : root.ProperNames) (hi : i ≠ "") :
    (i, c) ∈ (ofNormalizer n ignore).rootEntries root ↔ ContributesFile n ignore root i c := by
  rw [rootEntries_eq_listing _ hnames.name_ne_empty]
  unfold listing
  rw [List.mem_filterMap]
  constructor
  · rintro ⟨⟨t, l⟩, hmem, hlisted⟩
    have ht : trailText t ≠ "" := trailText_of_listed?_eq_some hn hlisted ▸ hi
    obtain ⟨htext, hread, p, rfl⟩ := (listed?_eq_some_iff hn ht).mp hlisted
    rcases Location.eq_nil_or_ne_empty_of_mem_trails hnames.name_ne_empty hmem with h | h
    · exact absurd (congrArg trailText h.1) ht
    · exact ⟨h.1, hread, t, p, hmem, htext⟩
  · rintro ⟨-, hread, t, p, hmem, rfl⟩
    exact ⟨(t, .file p c), hmem, (listed?_eq_some_iff hn hi).mpr ⟨rfl, hread, p, rfl⟩⟩

/-- **No two entries of a root have one identity.** -/
theorem nodup_map_rootEntries (ignore : IgnoreList) (hnames : root.ProperNames) :
    (((ofNormalizer n ignore).rootEntries root).map Prod.fst).Nodup := by
  rw [rootEntries_eq_listing _ hnames.name_ne_empty, List.Nodup, List.pairwise_map]
  refine List.pairwise_filterMap.mpr ?_
  refine (List.pairwise_map.mp (Location.nodup_map_trailText hnames)).imp ?_
  intro x y hne a ha b hb heq
  rw [← trailText_of_listed?_eq_some hn ha, ← trailText_of_listed?_eq_some hn hb] at heq
  exact hne heq

/-! ## Entries of a snapshot -/

/-- Entries with one identity belong to different roots. -/
theorem nodup_map_entries (ignore : IgnoreList) (hnames : ∀ root ∈ s.roots, root.ProperNames) :
    (((ofNormalizer n ignore).entries s).map fun e => (e.root, e.identity)).Nodup := by
  rw [List.Nodup, List.pairwise_map]
  refine pairwise_entriesFrom_of (fun hlt heq => ?_) (fun root hroot number => ?_) 0
  · exact hlt.ne (Prod.mk.inj heq).1
  · have hkeys := nodup_map_rootEntries hn ignore (hnames root hroot)
    rw [← ((List.mergeSort_perm _ entryLE).map _).nodup_iff, List.Nodup, List.pairwise_map] at hkeys
    exact List.pairwise_map.mpr (hkeys.imp fun hne heq => hne (Prod.mk.inj heq).2)

theorem filter_entries_eq_singleton (hnames : ∀ root ∈ s.roots, root.ProperNames)
    (he : e ∈ (ofNormalizer n ignore).entries s) :
    ((ofNormalizer n ignore).entries s).filter
      (fun x => x.root = e.root ∧ x.identity = e.identity) = [e] := by
  have hkeys := nodup_map_entries hn ignore hnames
  rw [← List.perm_singleton,
    List.perm_ext_iff_of_nodup (hkeys.of_map.filter _) (List.nodup_singleton e)]
  intro x
  rw [List.mem_filter, List.mem_singleton, decide_eq_true_eq]
  constructor
  · rintro ⟨hx, hroot, hidentity⟩
    exact List.inj_on_of_nodup_map hkeys hx he (Prod.ext hroot hidentity)
  · rintro rfl
    exact ⟨he, rfl, rfl⟩

/-! ## The file that is found -/

theorem isFirstFile_of_find?_eq_some (hnames : ∀ root ∈ s.roots, root.ProperNames) (hi : i ≠ "")
    (h : ((ofNormalizer n ignore).fresh s).find? i = some e) : IsFirstFile n ignore s i e := by
  obtain ⟨rfl, he, hfirst⟩ := root_le_of_find?_eq_some h
  constructor
  case file =>
    obtain ⟨root, hroot, hentry⟩ := mem_entries_iff.mp he
    have hproper := hnames root (List.mem_of_getElem? hroot)
    refine ⟨root, hroot, fun c => ?_⟩
    rw [← mem_rootEntries_iff hn hproper hi]
    refine ⟨fun hc => ?_, fun hc => hc ▸ hentry⟩
    have hsame := List.inj_on_of_nodup_map (nodup_map_rootEntries hn ignore hproper) hc hentry rfl
    exact (Prod.mk.inj hsame).2
  case first =>
    intro number root hroot hlt c hc
    have hproper := hnames root (List.mem_of_getElem? hroot)
    have hearlier : ⟨number, e.identity, c⟩ ∈ (ofNormalizer n ignore).entries s :=
      mem_entries_iff.mpr ⟨root, hroot, (mem_rootEntries_iff hn hproper hi).mpr hc⟩
    exact hlt.not_ge (hfirst _ hearlier rfl)
  case only => exact filter_entries_eq_singleton hn hnames he

theorem isSome_find?_iff (hnames : ∀ root ∈ s.roots, root.ProperNames) (hi : i ≠ "") :
    (((ofNormalizer n ignore).fresh s).find? i).isSome ↔
      ∃ root ∈ s.roots, ∃ c, ContributesFile n ignore root i c := by
  have hlookup : (((ofNormalizer n ignore).fresh s).find? i).isSome ↔
      ∃ e ∈ (ofNormalizer n ignore).entries s, e.identity = i := by
    unfold Fingerprint.find?
    simp only [List.find?_isSome, decide_eq_true_eq]
    rfl
  rw [hlookup]
  constructor
  · rintro ⟨e, he, rfl⟩
    obtain ⟨root, hroot, hentry⟩ := mem_entries_iff.mp he
    have hmem := List.mem_of_getElem? hroot
    exact ⟨root, hmem, e.content, (mem_rootEntries_iff hn (hnames root hmem) hi).mp hentry⟩
  · rintro ⟨root, hmem, c, hc⟩
    obtain ⟨number, hroot⟩ := List.mem_iff_getElem?.mp hmem
    have hentry := (mem_rootEntries_iff hn (hnames root hmem) hi).mpr hc
    exact ⟨⟨number, i, c⟩, mem_entries_iff.mpr ⟨root, hroot, hentry⟩, rfl⟩

end

/--
**Earlier roots hide later ones.** Names of files that lie in one directory are different, not
empty, and without slashes. Then a fingerprint for class paths, with whatever patterns, has an entry
with an identity that is not empty just if a root that is a directory contributes a file with this
relative path, and what is found is the only entry for it of the first such root.
-/
theorem find?_eq_first_file (hn : n = .classPath ∨ n = .compileClassPath) (ignore : IgnoreList)
    {s : Snapshot} (hnames : ∀ root ∈ s.roots, root.ProperNames) (hi : i ≠ "") :
    ((((ofNormalizer n ignore).fingerprint s none).find? i).isSome ↔
      ∃ root ∈ s.roots, ∃ c, ContributesFile n ignore root i c) ∧
      ∀ e, ((ofNormalizer n ignore).fingerprint s none).find? i = some e →
        IsFirstFile n ignore s i e :=
  ⟨isSome_find?_iff hn hnames hi, fun _ h => isFirstFile_of_find?_eq_some hn hnames hi h⟩

/-- An archive, a directory without the file, and two directories with it. -/
def sharedClass : Snapshot :=
  ⟨[.file ⟨"/l.jar"⟩ ⟨"1"⟩, .directory ⟨"/p"⟩ [.file ⟨"/p/A.class"⟩ ⟨"2"⟩],
    .directory ⟨"/q"⟩ [.directory ⟨"/q/d"⟩ [.file ⟨"/q/d/A.class"⟩ ⟨"3"⟩]],
    .directory ⟨"/r"⟩ [.directory ⟨"/r/d"⟩ [.file ⟨"/r/d/A.class"⟩ ⟨"4"⟩]]]⟩

/-- The first directory with the file comes third. -/
theorem find?_eq_first_file_sharedClass :
    (∀ root ∈ sharedClass.roots, root.ProperNames) ∧
      ((compileClassPath .empty).fingerprint sharedClass none).find? "d/A.class" =
        some ⟨2, "d/A.class", ⟨"3"⟩⟩ ∧
      IsFirstFile .compileClassPath .empty sharedClass "d/A.class" ⟨2, "d/A.class", ⟨"3"⟩⟩ := by
  have hnames : ∀ root ∈ sharedClass.roots, root.ProperNames := by
    refine List.forall_mem_cons.mpr ⟨.file _ _, List.forall_mem_cons.mpr ⟨?_,
      List.forall_mem_cons.mpr ⟨?_, List.forall_mem_singleton.mpr ?_⟩⟩⟩
    · exact properNames_below (by decide) (.file _ _)
    · exact properNames_below (by decide) (properNames_below (by decide) (.file _ _))
    · exact properNames_below (by decide) (properNames_below (by decide) (.file _ _))
  have hfound : ((compileClassPath .empty).fingerprint sharedClass none).find? "d/A.class" =
      some ⟨2, "d/A.class", ⟨"3"⟩⟩ := by decide +kernel
  refine ⟨hnames, hfound, ?_⟩
  exact (find?_eq_first_file (.inr rfl) .empty hnames (by decide)).2 _ hfound

end Fingerprinter

end BuildInputs

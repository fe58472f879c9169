import BuildInputs.Proofs.Fingerprint.Spelling
import BuildInputs.Proofs.Snapshot.Trails

/-!
# What absolute-path fingerprints determine

The absolute-path fingerprint lists every location at or below a root, and no root is without an
entry. So it gives back the roots in their order with their paths, and the trees below them up to
the order of children. There is one exception: a directory without children and a place where
nothing is are represented by the hash of a text, and a file may hold that very text. What is given
back is the tree that shows (`shown`), in which such a file stands in for them.

1. The entries of a root give back its path, which is the first part of every identity
   (`path_eq_of_perm`), and then the trails of the locations below it (`trailBelow_absoluteText`).
2. Trails and stand-ins give back the tree that shows, child by child (`alike_shown_of_perm`).
3. The hash tells the roots apart, as each of them has a block (`blocks_absolutePath`).
-/

namespace BuildInputs

open Digest

namespace Fingerprinter

open Location (Alike AlikeChildren ProperNames properNames_below records recordsBelow trails
  visit_eq_cons)

/-! ## The tree that shows -/

/-- The texts that stand for directories and for nothing. -/
def standIns : List Bytes := [utf8 "stratum:dir", utf8 "stratum:missing"]

/-- A location that shows by its children, or by a content when it has none. -/
def shownAt (p : Path) (content : ContentHash) : List Location → Location
  | [] => .file p content
  | c :: cs => .directory p (c :: cs)

mutual

/-- The tree with files in place of the empty directories and of the places where nothing is. -/
def shown : Location → Location
  | .file p content => .file p content
  | .directory p cs => shownAt p (standInHash (.directory p cs)) (shownList cs)
  | .missing p => .file p (standInHash (.missing p))

def shownList : List Location → List Location
  | [] => []
  | c :: cs => shown c :: shownList cs

end

theorem shownList_eq_map (cs : List Location) : shownList cs = cs.map shown := by
  induction cs with
  | nil => rfl
  | cons c cs ih => rw [shownList, ih, List.map_cons]

theorem shown_eq (l : Location) :
    shown l = shownAt l.path (standInHash l) (l.children.map shown) := by
  cases l with
  | file p content => rw [shown]; rfl
  | directory p cs => rw [shown, shownList_eq_map]; rfl
  | missing p => rw [shown]; rfl

theorem path_shown (l : Location) : (shown l).path = l.path := by
  rw [shown_eq]
  cases l.children <;> rfl

theorem name_shown (l : Location) : (shown l).name = l.name := by
  unfold Location.name
  rw [path_shown]

theorem children_shown (l : Location) : (shown l).children = l.children.map shown := by
  rw [shown_eq]
  cases l.children <;> rfl

theorem standInHash_shown (l : Location) : standInHash (shown l) = standInHash l := by
  cases l with
  | file p content => rw [shown]
  | directory p cs => rw [shown]; cases cs <;> rfl
  | missing p => rw [shown]; rfl

theorem shownAt_alike {p q : Path} (hn : p.name = q.name) (content : ContentHash)
    {cs ds : List Location} (h : AlikeChildren cs ds) :
    Alike (shownAt p content cs) (shownAt q content ds) := by
  cases h with
  | nil => exact .file hn
  | cons before after hd hr =>
    cases before with
    | nil => exact .directory hn (.cons [] after hd hr)
    | cons b before => exact .directory hn (.cons (b :: before) after hd hr)

/-! ## The tree that shows from trails -/

theorem alikeChildren_shown_of_perm : ∀ {cs ds : List Location}, (cs.map Location.name).Nodup →
    (ds.map Location.name).Nodup →
      (∀ c ∈ cs, ∀ d ∈ ds, c.name = d.name →
        (c.records standInHash).Perm (d.records standInHash) → Alike (shown c) (shown d)) →
          (recordsBelow standInHash cs).Perm (recordsBelow standInHash ds) →
            AlikeChildren (cs.map shown) (ds.map shown)
  | [], ds, _, _, _, h => by
    rw [(Location.recordsBelow_eq_nil_iff standInHash).mp h.symm.eq_nil]
    exact .nil
  | c :: cs, ds, hcs, hds, hpairs, h => by
    obtain ⟨before, d, after, rfl, hname, hpair, hrest⟩ :=
      Location.exists_child_of_recordsBelow_perm standInHash hcs hds h
    have hsublist : (before ++ after).Sublist (before ++ d :: after) :=
      (List.sublist_cons_self d after).append_left before
    rw [List.map_cons, List.map_append, List.map_cons]
    refine .cons _ _ (hpairs c List.mem_cons_self d (List.mem_append_right _ List.mem_cons_self)
      hname hpair) ?_
    rw [← List.map_append]
    exact alikeChildren_shown_of_perm (List.nodup_cons.mp hcs).2
      (hds.sublist (hsublist.map Location.name))
      (fun x hx y hy => hpairs x (List.mem_cons_of_mem c hx) y (hsublist.subset hy)) hrest

/-- **Trails and stand-ins give back the tree that shows.** -/
theorem alike_shown_of_perm {l m : Location} (hl : ProperNames l) (hm : ProperNames m)
    (hname : l.name = m.name)
    (h : (l.records standInHash).Perm (m.records standInHash)) : Alike (shown l) (shown m) := by
  induction l using Location.childInduction generalizing m with
  | step l ih =>
    obtain ⟨hstandIn, hbelow⟩ := (Location.records_perm_iff standInHash).mp h
    rw [shown_eq, shown_eq m, hstandIn]
    refine shownAt_alike hname _ (alikeChildren_shown_of_perm hl.nodup hm.nodup ?_ hbelow)
    intro c hc d hd
    exact ih c hc (hl.child c hc).2 (hm.child d hd).2

/-! ## Trails from identities -/

/-- What is left of a text below a root without the path of the root and the slash after it. -/
def relativeOf (root : Location) (text : String) : String :=
  if root.path.text.isEmpty || root.path.text.toList.getLast? = some '/' then
    String.ofList (text.toList.drop root.path.text.toList.length)
  else String.ofList (text.toList.drop (root.path.text.toList.length + 1))

theorem relativeOf_absoluteText {root : Location} {relative : String}
    (h : (Path.mk relative).isAbsolute = false) :
    relativeOf root (absoluteText root relative) = relative := by
  unfold relativeOf absoluteText Path.join
  rw [h, if_neg Bool.false_ne_true]
  by_cases hempty : relative.isEmpty = true
  · rw [if_pos hempty, String.isEmpty_iff.mp hempty, List.drop_length,
      List.drop_eq_nil_of_le (Nat.le_succ _), ite_self]
  · rw [if_neg hempty]
    split
    · rw [String.toList_append, List.drop_left, String.ofList_toList]
    · have hslash : (root.path.text ++ "/").toList.length = root.path.text.toList.length + 1 := by
        rw [String.toList_append, List.length_append]
        rfl
      rw [String.toList_append, ← hslash, List.drop_left, String.ofList_toList]

/-- The trail of a text below a root. -/
def trailBelow (root : Location) (text : String) : Trail := trailOf (relativeOf root text)

theorem trailBelow_absoluteText {root : Location} {t : Trail} (ht : ∀ n ∈ t, IsName n) :
    trailBelow root (absoluteText root (trailText t)) = t := by
  unfold trailBelow
  rw [relativeOf_absoluteText (isAbsolute_trailText ht), trailOf_trailText ht]

theorem located_eq_map_records {l : Location} (h : ProperNames l) :
    located l = (l.records standInHash).map (Prod.map trailText id) := by
  unfold located records
  rw [Location.visit_eq_map_trails h.name_ne_empty, List.map_map, List.map_map]
  rfl

theorem isName_of_mem_records {l : Location} (h : ProperNames l) {e : Trail × ContentHash}
    (he : e ∈ l.records standInHash) : ∀ n ∈ e.1, IsName n := by
  obtain ⟨e', he', rfl⟩ := List.mem_map.mp he
  exact Location.isName_of_mem_trails h e' he'

theorem map_fst_rootEntries (l : Location) : (absolutePath.rootEntries l).map Prod.fst =
    ((located l).map Prod.fst).map (absoluteText l) := by
  rw [rootEntries_absolutePath, List.map_map, List.map_map]
  rfl

theorem isAbsolute_of_mem_located {l : Location} (h : ProperNames l) {r : String}
    (hr : r ∈ (located l).map Prod.fst) : (Path.mk r).isAbsolute = false := by
  rw [located_eq_map_records h, List.map_map] at hr
  obtain ⟨e, he, rfl⟩ := List.mem_map.mp hr
  exact isAbsolute_trailText (isName_of_mem_records h he)

/-- Trails are read back from the entries of a root. -/
theorem map_trailBelow_rootEntries {root l : Location} (h : ProperNames l)
    (hpath : root.path = l.path) :
    (absolutePath.rootEntries l).map (Prod.map (trailBelow root) id) = l.records standInHash := by
  have hroot : absoluteText l = absoluteText root := by
    funext relative
    unfold absoluteText
    rw [hpath]
  rw [rootEntries_absolutePath, located_eq_map_records h, List.map_map, List.map_map, hroot]
  refine (List.map_congr_left fun e he => ?_).trans (List.map_id _)
  exact Prod.ext (trailBelow_absoluteText (isName_of_mem_records h he)) rfl

/-- **The entries of a root give back its path and the tree that shows below it.** -/
theorem alike_shown_of_rootEntries_perm {l m : Location} (hl : ProperNames l) (hm : ProperNames m)
    (h : (absolutePath.rootEntries l).Perm (absolutePath.rootEntries m)) :
    l.path = m.path ∧ Alike (shown l) (shown m) := by
  have hpath : l.path = m.path := by
    have htexts := h.map Prod.fst
    rw [map_fst_rootEntries, map_fst_rootEntries] at htexts
    refine path_eq_of_perm (empty_mem_located l) (empty_mem_located m) (fun r hr => ?_) htexts
    rcases List.mem_append.mp hr with hr | hr
    · exact isAbsolute_of_mem_located hl hr
    · exact isAbsolute_of_mem_located hm hr
  refine ⟨hpath, alike_shown_of_perm hl hm (congrArg Path.name hpath) ?_⟩
  rw [← map_trailBelow_rootEntries hl rfl, ← map_trailBelow_rootEntries hm hpath]
  exact h.map _

/-! ## Entries of the tree that shows -/

theorem map_visitFrom_shown (l : Location) (relative : String) :
    ((shown l).visitFrom relative).map (Prod.map id standInHash) =
      (l.visitFrom relative).map (Prod.map id standInHash) := by
  induction l using Location.childInduction generalizing relative with
  | step l ih =>
    rw [Location.visitFrom_eq_cons, Location.visitFrom_eq_cons, List.map_cons, List.map_cons,
      Prod.map_apply, Prod.map_apply, standInHash_shown, children_shown,
      Location.visitChildren_eq_flatMap, Location.visitChildren_eq_flatMap, List.flatMap_map,
      List.map_flatMap, List.map_flatMap]
    refine congrArg (_ :: ·) (List.flatMap_congr fun c hc => ?_)
    rw [name_shown, ih c hc]

/-- The tree that shows has the entries of the tree itself. -/
theorem rootEntries_shown (l : Location) :
    absolutePath.rootEntries (shown l) = absolutePath.rootEntries l := by
  have hroot : absoluteText (shown l) = absoluteText l := by
    funext relative
    unfold absoluteText
    rw [path_shown]
  have hlocated : located (shown l) = located l := map_visitFrom_shown l ""
  rw [rootEntries_absolutePath, rootEntries_absolutePath, hroot, hlocated]

/-- **Roots have the same entries when they have one path and the same tree shows.** -/
theorem rootEntries_perm_iff {l m : Location} (hl : ProperNames l) (hm : ProperNames m) :
    (absolutePath.rootEntries l).Perm (absolutePath.rootEntries m) ↔
      l.path = m.path ∧ Alike (shown l) (shown m) := by
  constructor
  · exact alike_shown_of_rootEntries_perm hl hm
  · rintro ⟨hpath, halike⟩
    rw [← rootEntries_shown l, ← rootEntries_shown m]
    refine rootEntries_perm absolutePath halike fun _ => ?_
    rw [path_shown, path_shown, hpath]

/-! ## Trees without stand-ins -/

/-- Alike locations have the same name, kind and content, and their children are alike. -/
theorem alike_iff {l m : Location} : Alike l m ↔ l.name = m.name ∧ l.kind = m.kind ∧
    standInHash l = standInHash m ∧ AlikeChildren l.children m.children := by
  constructor
  · intro h
    refine ⟨h.name_eq, h.kind_eq, standInHash_eq h, ?_⟩
    cases h with
    | file | missing => exact .nil
    | directory _ hc => exact hc
  · rintro ⟨hname, hkind, hcontent, hchildren⟩
    cases l <;> cases m <;> cases hkind
    case file.file.refl p content q content' =>
      obtain rfl : content = content' := hcontent
      exact .file hname
    case directory.directory.refl => exact .directory hname hchildren
    case missing.missing.refl => exact .missing hname

theorem alikeChildren_of_map {f : Location → Location} : ∀ {cs ds : List Location},
    (∀ c ∈ cs, ∀ d ∈ ds, Alike (f c) (f d) → Alike c d) → AlikeChildren (cs.map f) (ds.map f) →
      AlikeChildren cs ds
  | [], [], _, _ => .nil
  | [], d :: ds, _, h => by cases h
  | c :: cs, ds, hpairs, h => by
    generalize hds : ds.map f = fds at h
    cases h with
    | cons before after hd hr =>
      obtain ⟨before, rest, rfl, rfl, hrest⟩ := List.map_eq_append_iff.mp hds
      obtain ⟨d, after, rfl, rfl, rfl⟩ := List.map_eq_cons_iff.mp hrest
      have hsublist : (before ++ after).Sublist (before ++ d :: after) :=
        (List.sublist_cons_self d after).append_left before
      rw [← List.map_append] at hr
      exact .cons before after
        (hpairs c List.mem_cons_self d (List.mem_append_right _ List.mem_cons_self) hd)
        (alikeChildren_of_map (fun x hx y hy => hpairs x (List.mem_cons_of_mem c hx) y
          (hsublist.subset hy)) hr)

/-- The hashes of all files at and below a location are those of the given contents. -/
inductive HoldsContents (contents : List Bytes) : Location → Prop
  | file (p : Path) {content : Bytes} (h : content ∈ contents) :
    HoldsContents contents (.file p (.ofBytes content))
  | directory (p : Path) {cs : List Location} (hc : ∀ c ∈ cs, HoldsContents contents c) :
    HoldsContents contents (.directory p cs)
  | missing (p : Path) : HoldsContents contents (.missing p)

variable {contents : List Bytes}

theorem HoldsContents.child {l : Location} (h : HoldsContents contents l) :
    ∀ c ∈ l.children, HoldsContents contents c := by
  intro c hc
  cases h with
  | file | missing => exact absurd hc List.not_mem_nil
  | directory _ hchildren => exact hchildren c hc

/-- The kind of location that a text stands for. -/
def kindOf (content : Bytes) : FileKind :=
  if content = utf8 "stratum:dir" then .directory
  else if content = utf8 "stratum:missing" then .missing
  else .regularFile

/-- Where no file holds a text that stands for a kind, what stands for a location tells its kind. -/
theorem HoldsContents.exists_standInHash (hnone : ∀ b ∈ standIns, b ∉ contents) {l : Location}
    (h : HoldsContents contents l) :
    ∃ b ∈ standIns ++ contents, standInHash l = .ofBytes b ∧ kindOf b = l.kind := by
  cases h with
  | @file p content h =>
    have hdirectory : content ≠ utf8 "stratum:dir" :=
      fun heq => hnone _ List.mem_cons_self (heq ▸ h)
    have hmissing : content ≠ utf8 "stratum:missing" :=
      fun heq => hnone _ (List.mem_cons_of_mem _ List.mem_cons_self) (heq ▸ h)
    refine ⟨content, List.mem_append_right _ h, rfl, ?_⟩
    unfold kindOf
    rw [if_neg hdirectory, if_neg hmissing]
    rfl
  | directory p hc => exact ⟨_, List.mem_cons_self, rfl, if_pos rfl⟩
  | missing p =>
    refine ⟨_, List.mem_cons_of_mem _ List.mem_cons_self, rfl, ?_⟩
    unfold kindOf
    rw [if_neg (by decide), if_pos rfl]
    rfl

theorem kind_eq_of_standInHash_eq (hc : CollisionFree (standIns ++ contents))
    (hnone : ∀ b ∈ standIns, b ∉ contents) {l m : Location} (hl : HoldsContents contents l)
    (hm : HoldsContents contents m) (h : standInHash l = standInHash m) : l.kind = m.kind := by
  obtain ⟨b, hb, hlb, hlkind⟩ := hl.exists_standInHash hnone
  obtain ⟨b', hb', hmb, hmkind⟩ := hm.exists_standInHash hnone
  rw [hlb, hmb] at h
  rw [← hlkind, ← hmkind, hc b hb b' hb' (ContentHash.ofBytes_inj.mp h)]

/-- **The tree that shows is the tree itself where no file holds a text that stands for a kind.** -/
theorem alike_of_alike_shown (hc : CollisionFree (standIns ++ contents))
    (hnone : ∀ b ∈ standIns, b ∉ contents) {l m : Location} (hl : HoldsContents contents l)
    (hm : HoldsContents contents m) (h : Alike (shown l) (shown m)) : Alike l m := by
  induction l using Location.childInduction generalizing m with
  | step l ih =>
    obtain ⟨hname, -, hstandIn, hchildren⟩ := alike_iff.mp h
    rw [name_shown, name_shown] at hname
    rw [standInHash_shown, standInHash_shown] at hstandIn
    rw [children_shown, children_shown] at hchildren
    refine alike_iff.mpr ⟨hname, kind_eq_of_standInHash_eq hc hnone hl hm hstandIn, hstandIn, ?_⟩
    exact alikeChildren_of_map (fun c hc d hd => ih c hc (hl.child c hc) (hm.child d hd)) hchildren

/-! ## Blocks -/

theorem block_absolutePath_ne_nil (l : Location) : absolutePath.block l ≠ [] := by
  intro hnil
  have hentries := (absolutePath.perm_block l).symm
  rw [hnil, rootEntries_absolutePath] at hentries
  have hlocated : located l = [] := List.map_eq_nil_iff.mp hentries.eq_nil
  have hempty := empty_mem_located l
  rw [hlocated] at hempty
  exact absurd hempty List.not_mem_nil

/-- Every root has a block. -/
theorem blocks_absolutePath (s : Snapshot) :
    absolutePath.blocks s = s.roots.map absolutePath.block := by
  unfold blocks
  rw [List.filter_eq_self]
  intro b hb
  obtain ⟨l, -, rfl⟩ := List.mem_map.mp hb
  simpa using block_absolutePath_ne_nil l

theorem blocks_absolutePath_eq_iff {s t : Snapshot} :
    absolutePath.blocks s = absolutePath.blocks t ↔
      List.Forall₂ (fun l m => (absolutePath.rootEntries l).Perm (absolutePath.rootEntries m))
        s.roots t.roots := by
  rw [blocks_absolutePath, blocks_absolutePath, ← List.forall₂_eq_eq_eq,
    List.forall₂_map_left_iff, List.forall₂_map_right_iff]
  exact forall₂_iff_of_zip fun l m _ => block_eq_iff

/-! ## Snapshots -/

/--
**Absolute-path fingerprints determine the tree that shows.** Two snapshots have fingerprints with
one hash exactly when their roots correspond in order, with the same paths, and below them the same
trees show, up to the order of children. If no file holds a text that stands for a directory or for
nothing, these are the trees themselves, with all names, kinds and contents.
-/
theorem absolutePath_hash_eq_iff {s t : Snapshot} {contents : List Bytes}
    (hnames : ∀ l ∈ s.roots ++ t.roots, ProperNames l)
    (hcontents : ∀ l ∈ s.roots ++ t.roots, HoldsContents contents l)
    (hc : CollisionFree (standIns ++ contents ++
      [(absolutePath.fresh s).summaryStream, (absolutePath.fresh t).summaryStream]))
    (htexts : ∀ x ∈ (absolutePath.fresh s).texts ++ (absolutePath.fresh t).texts,
      Framable (utf8 x)) :
    ((absolutePath.fingerprint s none).hash = (absolutePath.fingerprint t none).hash ↔
      List.Forall₂ (fun l m => l.path = m.path ∧ Alike (shown l) (shown m)) s.roots t.roots) ∧
    ((∀ b ∈ standIns, b ∉ contents) →
      ((absolutePath.fingerprint s none).hash = (absolutePath.fingerprint t none).hash ↔
        List.Forall₂ (fun l m => l.path = m.path ∧ Alike l m) s.roots t.roots)) := by
  have hroots : (absolutePath.fingerprint s none).hash = (absolutePath.fingerprint t none).hash ↔
      List.Forall₂ (fun l m => (absolutePath.rootEntries l).Perm (absolutePath.rootEntries m))
        s.roots t.roots := by
    show (absolutePath.fresh s).hash = (absolutePath.fresh t).hash ↔ _
    rw [Fingerprint.hash_eq_iff (hc.mono (List.subset_append_right _ _))
      (fun x hx => htexts x (List.mem_append_left _ hx))
      (fun x hx => htexts x (List.mem_append_right _ hx)), blocks_fresh, blocks_fresh,
      blocks_absolutePath_eq_iff]
    exact and_iff_right rfl
  have hmem {l m : Location} (h : (l, m) ∈ s.roots.zip t.roots) :
      l ∈ s.roots ++ t.roots ∧ m ∈ s.roots ++ t.roots :=
    ⟨List.mem_append_left _ (List.of_mem_zip h).1, List.mem_append_right _ (List.of_mem_zip h).2⟩
  have hshown {l m : Location} (h : (l, m) ∈ s.roots.zip t.roots) :
      (absolutePath.rootEntries l).Perm (absolutePath.rootEntries m) ↔
        l.path = m.path ∧ Alike (shown l) (shown m) :=
    rootEntries_perm_iff (hnames l (hmem h).1) (hnames m (hmem h).2)
  constructor
  · rw [hroots]
    exact forall₂_iff_of_zip fun l m h => hshown h
  · intro hnone
    rw [hroots]
    refine forall₂_iff_of_zip fun l m h => ⟨fun hperm => ?_, fun ⟨hpath, halike⟩ => ?_⟩
    · obtain ⟨hpath, halike⟩ := (hshown h).mp hperm
      exact ⟨hpath, alike_of_alike_shown (hc.mono (List.subset_append_left _ _)) hnone
        (hcontents l (hmem h).1) (hcontents m (hmem h).2) halike⟩
    · exact rootEntries_perm absolutePath halike fun _ => hpath

/-- A directory with a file. -/
def fileBelow : Snapshot := ⟨[.directory ⟨"/r"⟩ [.file ⟨"/r/a"⟩ (.ofBytes (utf8 "1"))]]⟩

/-- The same directory with an empty directory in place of the file. -/
def directoryBelow : Snapshot := ⟨[.directory ⟨"/r"⟩ [.directory ⟨"/r/a"⟩ []]]⟩

theorem entries_of_pairwise {l : Location}
    (h : (absolutePath.rootEntries l).Pairwise (entryLE · ·)) :
    absolutePath.entries ⟨[l]⟩ =
      (absolutePath.rootEntries l).map fun (identity, content) => ⟨0, identity, content⟩ := by
  have hsorted : absolutePath.numberedEntries l 0 =
      (absolutePath.rootEntries l).map fun (identity, content) => ⟨0, identity, content⟩ := by
    unfold numberedEntries
    rw [List.mergeSort_of_pairwise h]
  rw [← hsorted]
  exact List.append_nil _

theorem entries_oneChild {c : Location} (hname : c.name = "a") (hc : c.children = []) :
    absolutePath.entries ⟨[.directory ⟨"/r"⟩ [c]]⟩ =
      [⟨0, "/r", .ofBytes (utf8 "stratum:dir")⟩, ⟨0, "/r/a", standInHash c⟩] := by
  have hlocated : located (.directory ⟨"/r"⟩ [c]) =
      [("", .ofBytes (utf8 "stratum:dir")), ("a", standInHash c)] := by
    unfold located
    rw [visit_eq_cons, Location.children, Location.visitChildren, Location.visitFrom_eq_cons, hc,
      hname]
    rfl
  have hentries : absolutePath.rootEntries (.directory ⟨"/r"⟩ [c]) =
      [("/r", .ofBytes (utf8 "stratum:dir")), ("/r/a", standInHash c)] := by
    have htext : absoluteText (.directory ⟨"/r"⟩ [c]) "a" = "/r/a" := by
      show (Path.join ⟨"/r"⟩ ⟨"a"⟩).text = "/r/a"
      decide
    rw [rootEntries_absolutePath, hlocated, List.map_cons, List.map_singleton, Prod.map_apply,
      Prod.map_apply, htext]
    rfl
  have hle : entryLE ("/r", .ofBytes (utf8 "stratum:dir")) ("/r/a", standInHash c) = true := by
    have hlt : compare "/r" "/r/a" = .lt := by decide
    unfold entryLE
    rw [hlt]
    rfl
  rw [entries_of_pairwise] <;> rw [hentries]
  · rfl
  · exact List.pairwise_pair.mpr hle

/-- A file is told from an empty directory of the same name. -/
theorem absolutePath_hash_ne_directoryBelow :
    (∀ l ∈ fileBelow.roots ++ directoryBelow.roots, ProperNames l) ∧
      (∀ l ∈ fileBelow.roots ++ directoryBelow.roots, HoldsContents [utf8 "1"] l) ∧
      CollisionFree (standIns ++ [utf8 "1"] ++
        [(absolutePath.fresh fileBelow).summaryStream,
          (absolutePath.fresh directoryBelow).summaryStream]) ∧
      (∀ x ∈ (absolutePath.fresh fileBelow).texts ++ (absolutePath.fresh directoryBelow).texts,
        Framable (utf8 x)) ∧
      (∀ b ∈ standIns, b ∉ [utf8 "1"]) ∧
      (absolutePath.fingerprint fileBelow none).hash ≠
        (absolutePath.fingerprint directoryBelow none).hash := by
  have hfile : absolutePath.entries fileBelow = _ := entries_oneChild (by decide) rfl
  have hdirectory : absolutePath.entries directoryBelow = _ := entries_oneChild (by decide) rfl
  have hnames : ∀ l ∈ fileBelow.roots ++ directoryBelow.roots, ProperNames l := by
    refine List.forall_mem_cons.mpr ⟨?_, List.forall_mem_singleton.mpr ?_⟩
    · exact properNames_below (by decide) (.file _ _)
    · exact properNames_below (by decide)
        (.directory List.nodup_nil (List.forall_mem_nil _) (List.forall_mem_nil _))
  have hcontents : ∀ l ∈ fileBelow.roots ++ directoryBelow.roots, HoldsContents [utf8 "1"] l := by
    refine List.forall_mem_cons.mpr ⟨?_, List.forall_mem_singleton.mpr ?_⟩
    · exact .directory _ (List.forall_mem_singleton.mpr (.file _ List.mem_cons_self))
    · exact .directory _ (List.forall_mem_singleton.mpr (.directory _ (List.forall_mem_nil _)))
  have hc : CollisionFree (standIns ++ [utf8 "1"] ++ [(absolutePath.fresh fileBelow).summaryStream,
      (absolutePath.fresh directoryBelow).summaryStream]) := by
    simp only [Fingerprint.summaryStream, fresh, hfile, hdirectory]
    decide +kernel
  have htexts : ∀ x ∈ (absolutePath.fresh fileBelow).texts ++
      (absolutePath.fresh directoryBelow).texts, Framable (utf8 x) := by
    simp only [Fingerprint.texts, fresh, hfile, hdirectory]
    decide +kernel
  have hnone : ∀ b ∈ standIns, b ∉ [utf8 "1"] := by decide
  refine ⟨hnames, hcontents, hc, htexts, hnone, fun h => ?_⟩
  cases ((absolutePath_hash_eq_iff hnames hcontents hc htexts).2 hnone).mp h with
  | cons hroot _ =>
    obtain ⟨-, -, -, hchildren⟩ := alike_iff.mp hroot.2
    obtain ⟨d, hd, halike⟩ := hchildren.exists_mem List.mem_cons_self
    obtain rfl := List.mem_singleton.mp hd
    cases halike

/-- A file with the text that stands for a directory, and an empty directory at its place. -/
def standInFile : Snapshot := ⟨[.file ⟨"/a"⟩ (.ofBytes (utf8 "stratum:dir"))]⟩

def emptyDirectory : Snapshot := ⟨[.directory ⟨"/a"⟩ []]⟩

/-- A file with the text that stands for a directory has the hash of an empty directory. -/
theorem absolutePath_hash_eq_standInFile :
    (∀ l ∈ standInFile.roots ++ emptyDirectory.roots,
        ProperNames l ∧ HoldsContents [utf8 "stratum:dir"] l) ∧
      CollisionFree (standIns ++ [utf8 "stratum:dir"] ++
        [(absolutePath.fresh standInFile).summaryStream,
          (absolutePath.fresh emptyDirectory).summaryStream]) ∧
      (absolutePath.fingerprint standInFile none).hash =
        (absolutePath.fingerprint emptyDirectory none).hash ∧
      ¬ List.Forall₂ (fun l m => l.path = m.path ∧ Alike l m)
        standInFile.roots emptyDirectory.roots := by
  have hfile : absolutePath.entries standInFile = [⟨0, "/a", .ofBytes (utf8 "stratum:dir")⟩] :=
    entries_of_pairwise (List.pairwise_singleton _ _)
  have hdirectory : absolutePath.entries emptyDirectory = absolutePath.entries standInFile :=
    (entries_of_pairwise (List.pairwise_singleton _ _)).trans hfile.symm
  refine ⟨List.forall_mem_cons.mpr ⟨⟨.file _ _, .file _ List.mem_cons_self⟩,
    List.forall_mem_singleton.mpr ⟨?_, .directory _ (List.forall_mem_nil _)⟩⟩, ?_, ?_, ?_⟩
  · exact .directory List.nodup_nil (List.forall_mem_nil _) (List.forall_mem_nil _)
  · simp only [Fingerprint.summaryStream, fresh, hdirectory, hfile]
    decide +kernel
  · simp only [Fingerprint.hash, fingerprint, fresh, hdirectory]
  · intro h
    cases h with
    | cons hroot _ => cases hroot.2

end Fingerprinter

end BuildInputs

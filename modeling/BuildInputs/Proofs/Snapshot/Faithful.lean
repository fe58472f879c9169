import BuildInputs.Proofs.Snapshot.Merkle
import BuildInputs.Proofs.Sorted
import Mathlib.Data.List.Nodup

/-!
# Hashes of snapshots are faithful

Hashes determine trees up to the order of children (`Location.alike_of_label_eq`). Where siblings
have distinct names the converse holds too: the labels of children are sorted by name, and names
decide where each of them stands, so alike directories have one hash (`hash?_eq_of_alike`).

* `hash?_directory_eq_iff` — the hash of a directory stands for the tree below it
* `signature_eq_iff` — the signature stands for the roots with their paths and trees
-/

namespace BuildInputs

open Digest

/-! ## Sorted labels -/

/-- Names decide the order of children that have distinct names. -/
theorem ChildRecord.sort_eq_of_perm {rs rs' : List ChildRecord} (h : rs.Perm rs')
    (hn : (rs.map ChildRecord.name).Nodup) : sort rs = sort rs' := by
  refine @mergeSort_eq_of_perm_of_inj _ (compareOn ChildRecord.name) _ _ _ h
    fun a ha b hb heq => ?_
  exact List.inj_on_of_nodup_map hn ha hb (Std.LawfulEqOrd.eq_of_compare heq)

namespace Location

/-! ## Trees with distinct names -/

/-- No two children of one directory have the same name, at any depth. -/
inductive DistinctNames : Location → Prop
  | file (p : Path) (content : ContentHash) : DistinctNames (file p content)
  | directory {p : Path} {cs : List Location} (hn : (cs.map name).Nodup)
    (hc : ∀ c ∈ cs, DistinctNames c) : DistinctNames (directory p cs)
  | missing (p : Path) : DistinctNames (missing p)

/-- What the hash of a directory covers of a child. -/
def record (l : Location) : ChildRecord := ⟨l.kind, l.name, l.hash?⟩

theorem childRecords_eq_map (cs : List Location) : childRecords cs = cs.map record := by
  induction cs with
  | nil => rfl
  | cons c cs ih => rw [childRecords, ih]; rfl

theorem map_name_childRecords (cs : List Location) :
    (childRecords cs).map ChildRecord.name = cs.map name := by
  rw [childRecords_eq_map, List.map_map]
  rfl

/-- Children that are paired with children of the same hash have the same records in some order. -/
theorem perm_childRecords : ∀ {cs ds : List Location}, AlikeChildren cs ds →
    (∀ c ∈ cs, ∀ d ∈ ds, Alike c d → c.hash? = d.hash?) →
      (childRecords cs).Perm (childRecords ds)
  | [], _, .nil, _ => List.Perm.refl _
  | c :: cs, _, .cons (d := d) before after hd hr, hhash => by
    have hmem : d ∈ before ++ d :: after := List.mem_append_right _ List.mem_cons_self
    have hrecord : c.record = d.record := by
      unfold record
      rw [hd.kind_eq, hd.name_eq, hhash c List.mem_cons_self d hmem hd]
    have hrest := perm_childRecords hr fun c hc d hd =>
      hhash c (List.mem_cons_of_mem _ hc) d (by grind)
    rw [childRecords_eq_map, childRecords_eq_map] at hrest ⊢
    rw [List.map_cons, List.map_append, List.map_cons, hrecord]
    rw [List.map_append] at hrest
    exact (hrest.cons _).trans List.perm_middle.symm

theorem directoryHash_eq_of_perm {rs rs' : List ChildRecord} (h : rs.Perm rs')
    (hn : (rs.map ChildRecord.name).Nodup) : directoryHash rs = directoryHash rs' := by
  unfold directoryHash
  rw [ChildRecord.sort_eq_of_perm h hn]

/-- **Alike trees with distinct names have one hash.** -/
theorem hash?_eq_of_alike {l m : Location} (hl : DistinctNames l) (h : Alike l m) :
    l.hash? = m.hash? := by
  induction hl generalizing m with
  | file p content => cases h; rfl
  | missing p => cases h; rfl
  | @directory p cs hn _ ih =>
    cases h with
    | directory _ hchildren =>
      have hperm := perm_childRecords hchildren fun c hc d _ hd => ih c hc hd
      rw [← map_name_childRecords] at hn
      rw [hash?, hash?, directoryHash_eq_of_perm hperm hn]

/-! ## Directories -/

/-- The path of a directory does not matter to what is hashed for it. -/
theorem Hashed.move {known : List Bytes} {p q : Path} {cs ds : List Location}
    (h : Hashed known (directory p cs)) (hp : Hashed known (directory q ds)) :
    Hashed known (directory p ds) where
  streams := hp.streams
  texts := by
    refine List.forall_mem_cons.mpr ⟨h.texts _ List.mem_cons_self, fun t ht => ?_⟩
    exact hp.texts t (List.mem_cons_of_mem _ ht)

theorem alikeChildren_of_hash?_eq {known : List Bytes} (hc : CollisionFree known) {p q : Path}
    {cs ds : List Location} (hl : Hashed known (directory p cs))
    (hm : Hashed known (directory q ds))
    (h : (directory p cs).hash? = (directory q ds).hash?) : AlikeChildren cs ds := by
  have hlabel : (directory p cs).label = (directory p ds).label :=
    congrArg (fun hash : Option ContentHash => Label.mk .directory p.name
      ((hash.map ContentHash.text).getD "")) h
  cases alike_of_label_eq hc hl (hl.move hm) hlabel with
  | directory _ hchildren => exact hchildren

/-- **The hash of a directory stands for the tree below it.** -/
theorem hash?_directory_eq_iff {known : List Bytes} (hc : CollisionFree known) {p q : Path}
    {cs ds : List Location} (hl : Hashed known (directory p cs))
    (hm : Hashed known (directory q ds)) (hdistinct : DistinctNames (directory p cs)) :
    (directory p cs).hash? = (directory q ds).hash? ↔ AlikeChildren cs ds := by
  constructor
  · exact alikeChildren_of_hash?_eq hc hl hm
  · intro h
    have halike : Alike (directory p cs) (directory p ds) := .directory rfl h
    show (directory p cs).hash? = (directory p ds).hash?
    exact hash?_eq_of_alike hdistinct halike

end Location

/-! ## Signatures -/

namespace Snapshot

open Location (Alike AlikeChildren DistinctNames)

theorem signatureStream_eq (s : Snapshot) : s.signatureStream =
    stream "stratum:snapshot:v1" ((s.roots.map Location.rootLabel).flatMap Label.pieces) := by
  rw [List.flatMap_map]
  rfl

theorem map_rootLabel_eq_of_forall₂ {ls ms : List Location}
    (h : List.Forall₂ (fun l m => Alike l m ∧ l.path = m.path) ls ms)
    (hdistinct : ∀ l ∈ ls, DistinctNames l) :
    ls.map Location.rootLabel = ms.map Location.rootLabel := by
  induction h with
  | nil => rfl
  | @cons l m ls ms hroot _ ih =>
    obtain ⟨hl, hls⟩ := List.forall_mem_cons.mp hdistinct
    have hlabel : l.rootLabel = m.rootLabel := by
      unfold Location.rootLabel Location.hashText
      rw [hroot.1.kind_eq, hroot.2, Location.hash?_eq_of_alike hl hroot.1]
    rw [List.map_cons, List.map_cons, hlabel, ih hls]

/-- **The signature stands for the roots with their paths and the trees below them.** -/
theorem signature_eq_iff {known : List Bytes} (hc : CollisionFree known) {s t : Snapshot}
    (hs : Hashed known s) (ht : Hashed known t) (hdistinct : ∀ l ∈ s.roots, DistinctNames l) :
    s.signature = t.signature ↔
      List.Forall₂ (fun l m => Alike l m ∧ l.path = m.path) s.roots t.roots := by
  constructor
  · exact forall₂_alike_of_signature_eq hc hs ht
  · intro h
    show ContentHash.ofBytes s.signatureStream = ContentHash.ofBytes t.signatureStream
    rw [signatureStream_eq, signatureStream_eq, map_rootLabel_eq_of_forall₂ h hdistinct]

/-! ## Faithfulness -/

/--
**Hashes of snapshots are faithful** where siblings have distinct names, as long as the streams that
are hashed on the two sides do not collide. The signature stands for the roots in order, with their
kinds, the texts of their paths, their contents and the trees below them; the hash of a directory
stands for the tree below it, wherever the directory lies.
-/
theorem hashes_faithful :
    (∀ s t : Snapshot, CollisionFree (s.streams ++ t.streams) →
      (∀ x ∈ s.texts ++ t.texts, Framable (utf8 x)) →
      (∀ l ∈ s.roots ++ t.roots, DistinctNames l) →
      (s.signature = t.signature ↔
        List.Forall₂ (fun l m => Alike l m ∧ l.path = m.path) s.roots t.roots)) ∧
    ∀ (p q : Path) (cs ds : List Location),
      CollisionFree ((Location.directory p cs).streams ++ (Location.directory q ds).streams) →
      (∀ x ∈ (Location.directory p cs).texts ++ (Location.directory q ds).texts,
        Framable (utf8 x)) →
      DistinctNames (.directory p cs) → DistinctNames (.directory q ds) →
      ((Location.directory p cs).hash? = (Location.directory q ds).hash? ↔
        AlikeChildren cs ds) := by
  constructor
  · intro s t hc htexts hdistinct
    have hs : Hashed (s.streams ++ t.streams) s :=
      ⟨List.subset_append_left _ _, fun x hx => htexts x (List.mem_append_left _ hx)⟩
    have ht : Hashed (s.streams ++ t.streams) t :=
      ⟨List.subset_append_right _ _, fun x hx => htexts x (List.mem_append_right _ hx)⟩
    exact signature_eq_iff hc hs ht fun l hl => hdistinct l (List.mem_append_left _ hl)
  · intro p q cs ds hc htexts hdistinct _
    refine Location.hash?_directory_eq_iff hc ?_ ?_ hdistinct
    · exact ⟨List.subset_append_left _ _, fun x hx => htexts x (List.mem_append_left _ hx)⟩
    · exact ⟨List.subset_append_right _ _, fun x hx => htexts x (List.mem_append_right _ hx)⟩

/-- Children of a directory: a file, and a directory below which nothing is at one place. -/
def sampleChildren : List Location :=
  [.file ⟨"/r/a"⟩ ⟨"1"⟩, .directory ⟨"/r/d"⟩ [.missing ⟨"/r/d/m"⟩]]

/-- The same children in the other order and with other paths. -/
def movedSampleChildren : List Location :=
  [.directory ⟨"d"⟩ [.missing ⟨"m"⟩], .file ⟨"/x/a"⟩ ⟨"1"⟩]

theorem sampleChildren_alike : AlikeChildren sampleChildren movedSampleChildren := by
  refine .cons [_] [] (.file (by decide)) (.cons [] [] (.directory (by decide) ?_) .nil)
  exact .cons [] [] (.missing (by decide)) .nil

theorem distinctNames_sampleChildren (p : Path) : DistinctNames (.directory p sampleChildren) := by
  refine .directory (by decide) (List.forall_mem_cons.mpr ⟨.file _ _, ?_⟩)
  have hbelow : DistinctNames (.directory ⟨"/r/d"⟩ [.missing ⟨"/r/d/m"⟩]) :=
    .directory (by decide) (List.forall_mem_singleton.mpr (.missing _))
  exact List.forall_mem_singleton.mpr hbelow

theorem distinctNames_movedSampleChildren (p : Path) :
    DistinctNames (.directory p movedSampleChildren) := by
  have hbelow : DistinctNames (.directory ⟨"d"⟩ [.missing ⟨"m"⟩]) :=
    .directory (by decide) (List.forall_mem_singleton.mpr (.missing _))
  exact .directory (by decide)
    (List.forall_mem_cons.mpr ⟨hbelow, List.forall_mem_singleton.mpr (.file _ _)⟩)

/-- A file with an empty hash is told from nothing, and a moved directory has the same hash. -/
theorem hashes_faithful_sampleChildren :
    (Snapshot.mk [.file ⟨"/a"⟩ ⟨""⟩]).signature ≠ (Snapshot.mk [.missing ⟨"/a"⟩]).signature ∧
      (Location.directory ⟨"/r"⟩ sampleChildren).hash? =
        (Location.directory ⟨"/s"⟩ movedSampleChildren).hash? := by
  constructor
  · have hiff := hashes_faithful.1 ⟨[.file ⟨"/a"⟩ ⟨""⟩]⟩ ⟨[.missing ⟨"/a"⟩]⟩ (by decide +kernel)
      (by decide) (List.forall_mem_cons.mpr ⟨.file _ _, List.forall_mem_singleton.mpr (.missing _)⟩)
    intro h
    cases hiff.mp h with
    | cons hroot _ => cases hroot.1
  · refine (hashes_faithful.2 ⟨"/r"⟩ ⟨"/s"⟩ sampleChildren movedSampleChildren ?_ (by decide)
      (distinctNames_sampleChildren _) (distinctNames_movedSampleChildren _)).mpr
        sampleChildren_alike
    simp only [Location.streams, Location.streamsBelow, directoryStream, Location.childRecords,
      ChildRecord.sort_pair, sampleChildren, movedSampleChildren, Location.hash?, directoryHash]
    decide +kernel

end Snapshot

end BuildInputs

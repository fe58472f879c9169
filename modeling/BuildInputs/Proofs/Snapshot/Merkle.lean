import BuildInputs.Proofs.Path
import BuildInputs.Proofs.Snapshot.Alike
import Mathlib.Data.List.Forall2

/-!
# What hashes of snapshots determine

The hash of a directory stands for the tree below it up to the order of children, and the signature
of a snapshot for its roots with their paths, as long as the streams that were hashed do not
collide.

A stream that is hashed for a directory or a snapshot is a sequence of labels: kind, place and hash
of one location each (`Label.delimited` cuts one label off). A directory sorts the labels of its
children by name, so equal streams mean the same labels in some order
(`perm_of_directoryStream_eq`), and the induction goes down the tree (`alike_of_label_eq`).
-/

namespace BuildInputs

open Digest

/-! ## Labels -/

/-- What a stream says of a location: its kind, a text for its place, and the text of its hash. -/
@[ext] structure Label where
  kind : FileKind
  place : String
  /-- Empty when nothing is there. -/
  hash : String
deriving DecidableEq

namespace Label

def pieces (l : Label) : List Piece := [.tag l.kind.tag, .text l.place, .text l.hash]

/-- Both texts can be framed. -/
def Framable (l : Label) : Prop := Digest.Framable (utf8 l.place) ∧ Digest.Framable (utf8 l.hash)

theorem tag_inj {k k' : FileKind} (h : k.tag = k'.tag) : k = k' := by
  cases k <;> cases k' <;> first | rfl | (exact absurd h (by decide))

theorem bytes_pieces (l : Label) : l.pieces.flatMap Piece.bytes =
    l.kind.tag :: (framed (utf8 l.place) ++ framed (utf8 l.hash)) := by
  simp [pieces]

theorem delimited : Delimited Framable fun l => l.pieces.flatMap Piece.bytes where
  ne_nil l h := by rw [bytes_pieces] at h; cases h
  inj {l m x y} hl hm h := by
    rw [bytes_pieces, bytes_pieces, List.cons_append, List.cons_append, List.append_assoc,
      List.append_assoc] at h
    obtain ⟨htag, h⟩ := List.cons.inj h
    obtain ⟨hplace, h⟩ := framed_append_inj hl.1 hm.1 h
    obtain ⟨hhash, h⟩ := framed_append_inj hl.2 hm.2 h
    exact ⟨Label.ext (tag_inj htag) (utf8_inj hplace) (utf8_inj hhash), h⟩

end Label

/-! ## Streams of directories -/

def ChildRecord.label (r : ChildRecord) : Label :=
  ⟨r.kind, r.name, (r.hash.map ContentHash.text).getD ""⟩

/-- The stream that is hashed for a directory. -/
def directoryStream (rs : List ChildRecord) : Bytes :=
  stream "stratum:directory:v1" ((ChildRecord.sort rs).flatMap ChildRecord.pieces)

theorem directoryHash_eq (rs : List ChildRecord) :
    directoryHash rs = .ofBytes (directoryStream rs) := rfl

theorem perm_map_sort {β : Type} (g : ChildRecord → β) (rs : List ChildRecord) :
    ((ChildRecord.sort rs).map g).Perm (rs.map g) :=
  (List.mergeSort_perm _ _).map g

/-- Two children are sorted by one comparison. -/
theorem ChildRecord.sort_pair (a b : ChildRecord) :
    sort [a, b] = if (compare a.name b.name).isLE then [a, b] else [b, a] := by
  unfold sort
  simp [List.mergeSort, List.merge]

/-- **Directories with one stream have the same labelled children in some order.** -/
theorem perm_of_directoryStream_eq {rs rs' : List ChildRecord}
    (hr : ∀ l ∈ rs.map ChildRecord.label, l.Framable)
    (hr' : ∀ l ∈ rs'.map ChildRecord.label, l.Framable)
    (h : directoryStream rs = directoryStream rs') :
    (rs.map ChildRecord.label).Perm (rs'.map ChildRecord.label) := by
  have hpieces (rs : List ChildRecord) : (ChildRecord.sort rs).flatMap ChildRecord.pieces =
      ((ChildRecord.sort rs).map ChildRecord.label).flatMap Label.pieces := by
    rw [List.flatMap_map]
    rfl
  unfold directoryStream at h
  rw [hpieces, hpieces] at h
  have hsorted := stream_inj Label.delimited
    (fun l hl => hr l ((perm_map_sort _ rs).mem_iff.mp hl))
    (fun l hl => hr' l ((perm_map_sort _ rs').mem_iff.mp hl)) h
  exact (perm_map_sort _ rs).symm.trans (hsorted ▸ perm_map_sort _ rs')

namespace Location

/-! ## What is hashed for a location -/

mutual

/-- The streams that are hashed for a location, one for every directory in it. -/
def streams : Location → List Bytes
  | directory _ cs => directoryStream (childRecords cs) :: streamsBelow cs
  | _ => []

def streamsBelow : List Location → List Bytes
  | [] => []
  | c :: cs => streams c ++ streamsBelow cs

end

mutual

/-- The texts that are stored in a location: its paths, and the hashes of its files. -/
def texts : Location → List String
  | file p content => [p.text, content.text]
  | directory p cs => p.text :: textsBelow cs
  | missing p => [p.text]

def textsBelow : List Location → List String
  | [] => []
  | c :: cs => texts c ++ textsBelow cs

end

theorem streamsBelow_eq (cs : List Location) : streamsBelow cs = cs.flatMap streams := by
  induction cs with
  | nil => rfl
  | cons c cs ih => rw [streamsBelow, ih, List.flatMap_cons]

theorem textsBelow_eq (cs : List Location) : textsBelow cs = cs.flatMap texts := by
  induction cs with
  | nil => rfl
  | cons c cs ih => rw [textsBelow, ih, List.flatMap_cons]

/-- All streams hashed for the location are known, and its texts can be framed. -/
structure Hashed (known : List Bytes) (l : Location) : Prop where
  streams : l.streams ⊆ known
  texts : ∀ t ∈ l.texts, Framable (utf8 t)

variable {known : List Bytes}

theorem Hashed.child {p : Path} {cs : List Location} (h : Hashed known (directory p cs)) :
    ∀ c ∈ cs, Hashed known c := by
  intro c hc
  obtain ⟨hstreams, htexts⟩ := h
  rw [Location.streams, streamsBelow_eq] at hstreams
  rw [Location.texts, textsBelow_eq] at htexts
  constructor
  · intro b hb
    exact hstreams (List.mem_cons_of_mem _ (List.mem_flatMap.mpr ⟨c, hc, hb⟩))
  · intro t ht
    exact htexts t (List.mem_cons_of_mem _ (List.mem_flatMap.mpr ⟨c, hc, ht⟩))

theorem Hashed.path {l : Location} (h : Hashed known l) : Framable (utf8 l.path.text) := by
  apply h.texts
  cases l <;> simp [Location.texts, Location.path]

/-! ## Labels of locations -/

/-- The text of the hash, empty when nothing is there. -/
def hashText (l : Location) : String := (l.hash?.map ContentHash.text).getD ""

/-- What the hash of a directory covers of a child. -/
def label (l : Location) : Label := ⟨l.kind, l.name, l.hashText⟩

/-- What the signature of a snapshot covers of a root. -/
def rootLabel (l : Location) : Label := ⟨l.kind, l.path.text, l.hashText⟩

theorem map_label_childRecords (cs : List Location) :
    (childRecords cs).map ChildRecord.label = cs.map label := by
  induction cs with
  | nil => rfl
  | cons c cs ih => rw [childRecords, List.map_cons, List.map_cons, ih]; rfl

theorem Hashed.hashText {l : Location} (h : Hashed known l) : Framable (utf8 l.hashText) := by
  cases l with
  | file p content => exact h.texts content.text (by simp [Location.texts])
  | directory p cs =>
    unfold Location.hashText
    rw [hash?, directoryHash_eq]
    exact ContentHash.framable_ofBytes _
  | missing p => exact Nat.two_pow_pos 64

theorem Hashed.label {l : Location} (h : Hashed known l) : l.label.Framable :=
  ⟨Nat.lt_of_le_of_lt l.path.utf8ByteSize_name_le h.path, h.hashText⟩

theorem Hashed.rootLabel {l : Location} (h : Hashed known l) : l.rootLabel.Framable :=
  ⟨h.path, h.hashText⟩

/-! ## Equal hashes, alike trees -/

mutual

/-- **Locations with one label are alike.** -/
theorem alike_of_label_eq (hc : CollisionFree known) : ∀ {l m : Location}, Hashed known l →
    Hashed known m → l.label = m.label → Alike l m
  | file p content, file q content', _, _, h => by
    obtain ⟨-, hname, hhash⟩ := Label.mk.inj h
    have : content = content' := congrArg ContentHash.mk hhash
    subst this
    exact Alike.file hname
  | directory p cs, directory q ds, hl, hm, h => by
    obtain ⟨-, hname, hhash⟩ := Label.mk.inj h
    refine Alike.directory hname (alikeChildren_of_perm hc hl.child hm.child ?_)
    have hhash : directoryHash (childRecords cs) = directoryHash (childRecords ds) :=
      congrArg ContentHash.mk hhash
    have hstream : directoryStream (childRecords cs) = directoryStream (childRecords ds) :=
      hc.stream_eq (hl.streams List.mem_cons_self) (hm.streams List.mem_cons_self) hhash
    rw [← map_label_childRecords, ← map_label_childRecords]
    refine perm_of_directoryStream_eq ?_ ?_ hstream
    · rw [map_label_childRecords]
      exact List.forall_mem_map.mpr fun c hc => (hl.child c hc).label
    · rw [map_label_childRecords]
      exact List.forall_mem_map.mpr fun d hd => (hm.child d hd).label
  | missing p, missing q, _, _, h => Alike.missing (Label.mk.inj h).2.1

theorem alikeChildren_of_perm (hc : CollisionFree known) : ∀ {cs ds : List Location},
    (∀ c ∈ cs, Hashed known c) → (∀ d ∈ ds, Hashed known d) →
      (cs.map label).Perm (ds.map label) → AlikeChildren cs ds
  | [], ds, _, _, h => by
    have : ds = [] := by simpa using h.symm
    rw [this]
    exact AlikeChildren.nil
  | c :: cs, ds, hcs, hds, h => by
    -- a location on the other side has the label of the first child: its partner
    have hmem : c.label ∈ ds.map label := h.subset List.mem_cons_self
    obtain ⟨d, hd, hlabel⟩ := List.mem_map.mp hmem
    obtain ⟨before, after, rfl⟩ := List.append_of_mem hd
    have hsub : ∀ e ∈ before ++ after, e ∈ before ++ d :: after := by
      intro e he
      rcases List.mem_append.mp he with he | he
      · exact List.mem_append_left _ he
      · exact List.mem_append_right _ (List.mem_cons_of_mem _ he)
    refine AlikeChildren.cons before after
      (alike_of_label_eq hc (hcs c List.mem_cons_self) (hds d hd) hlabel.symm)
      (alikeChildren_of_perm hc (fun e he => hcs e (List.mem_cons_of_mem _ he))
        (fun e he => hds e (hsub e he)) ?_)
    rw [List.map_cons, List.map_append, List.map_cons, hlabel] at h
    rw [List.map_append]
    exact (h.trans List.perm_middle).cons_inv

end

end Location

/-! ## Signatures -/

namespace Snapshot

open Location (Alike)

/-- The stream that is hashed for the signature. -/
def signatureStream (s : Snapshot) : Bytes :=
  stream "stratum:snapshot:v1" (s.roots.flatMap Location.signaturePieces)

/-- The streams that are hashed for a snapshot: its signature's and those of its directories. -/
def streams (s : Snapshot) : List Bytes := s.signatureStream :: s.roots.flatMap Location.streams

/-- The texts that are stored in a snapshot. -/
def texts (s : Snapshot) : List String := s.roots.flatMap Location.texts

/-- All streams hashed for the snapshot are known, and its texts can be framed. -/
structure Hashed (known : List Bytes) (s : Snapshot) : Prop where
  streams : s.streams ⊆ known
  texts : ∀ t ∈ s.texts, Framable (utf8 t)

variable {known : List Bytes} {s t : Snapshot}

theorem Hashed.root (h : Hashed known s) : ∀ l ∈ s.roots, l.Hashed known := by
  intro l hl
  constructor
  · intro b hb
    exact h.streams (List.mem_cons_of_mem _ (List.mem_flatMap.mpr ⟨l, hl, hb⟩))
  · intro t ht
    exact h.texts t (List.mem_flatMap.mpr ⟨l, hl, ht⟩)

theorem map_rootLabel_eq_of_signatureStream_eq (hs : Hashed known s) (ht : Hashed known t)
    (h : s.signatureStream = t.signatureStream) :
    s.roots.map Location.rootLabel = t.roots.map Location.rootLabel := by
  have hpieces (s : Snapshot) : s.roots.flatMap Location.signaturePieces =
      (s.roots.map Location.rootLabel).flatMap Label.pieces := by
    rw [List.flatMap_map]
    rfl
  unfold signatureStream at h
  rw [hpieces, hpieces] at h
  exact stream_inj Label.delimited
    (List.forall_mem_map.mpr fun l hl => (hs.root l hl).rootLabel)
    (List.forall_mem_map.mpr fun l hl => (ht.root l hl).rootLabel) h

/-- Two locations with one root label are alike and lie at one place. -/
theorem alike_of_rootLabel_eq (hc : CollisionFree known) {l m : Location} (hl : l.Hashed known)
    (hm : m.Hashed known) (h : l.rootLabel = m.rootLabel) : Alike l m ∧ l.path = m.path := by
  obtain ⟨hkind, hplace, hhash⟩ := Label.mk.inj h
  have hpath : l.path = m.path := congrArg Path.mk hplace
  refine ⟨Location.alike_of_label_eq hc hl hm (Label.ext hkind ?_ hhash), hpath⟩
  show l.path.name = m.path.name
  rw [hpath]

theorem forall₂_alike_of_map_rootLabel_eq (hc : CollisionFree known) :
    ∀ {ls ms : List Location}, (∀ l ∈ ls, l.Hashed known) → (∀ m ∈ ms, m.Hashed known) →
      ls.map Location.rootLabel = ms.map Location.rootLabel →
        List.Forall₂ (fun l m => Alike l m ∧ l.path = m.path) ls ms
  | [], ms, _, _, h => by
    rw [List.map_eq_nil_iff.mp h.symm]
    exact List.Forall₂.nil
  | l :: ls, m :: ms, hls, hms, h => by
    obtain ⟨hlabel, hrest⟩ := List.cons.inj h
    have ⟨hl, hls⟩ := List.forall_mem_cons.mp hls
    have ⟨hm, hms⟩ := List.forall_mem_cons.mp hms
    exact List.Forall₂.cons (alike_of_rootLabel_eq hc hl hm hlabel)
      (forall₂_alike_of_map_rootLabel_eq hc hls hms hrest)

/-- **Snapshots with one signature have alike roots at the same places.** -/
theorem forall₂_alike_of_signature_eq (hc : CollisionFree known) (hs : Hashed known s)
    (ht : Hashed known t) (h : s.signature = t.signature) :
    List.Forall₂ (fun l m => Alike l m ∧ l.path = m.path) s.roots t.roots := by
  have hstream : s.signatureStream = t.signatureStream :=
    hc.stream_eq (hs.streams List.mem_cons_self) (ht.streams List.mem_cons_self) h
  exact forall₂_alike_of_map_rootLabel_eq hc hs.root ht.root
    (map_rootLabel_eq_of_signatureStream_eq hs ht hstream)

end Snapshot

end BuildInputs

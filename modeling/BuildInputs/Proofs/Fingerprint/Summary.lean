import BuildInputs.Proofs.Fingerprint.Hint
import Mathlib.Data.List.SplitBy

/-!
# What the hash of a fingerprint determines

The hash of a fingerprint stands for its normalizer and for its entries root by root, as long as the
two streams that are hashed do not collide. The number of a root is not part of the stream: only
that another root begins is. So what is determined is the sequence of blocks, one for every root
with an entry.

1. The stream is a sequence of tokens: the mark of a new root, or an entry (`Token.delimited` cuts
   one token off).
2. The tokens are those of the blocks (`piecesFrom_flatten`), and a mark in front of every block
   tells the blocks apart (`tokens_inj`).
3. The blocks of a fingerprint are what the roots of its snapshot contribute, without the roots that
   contribute nothing (`blocks_fresh`).
-/

namespace BuildInputs

open Digest

/-! ## Tokens -/

/-- An identity with its content hash. -/
abbrev NamedContent := String × ContentHash

/-- What the stream of a fingerprint is made of, after the normalizer. -/
inductive Token
  /-- Another root begins. -/
  | root
  | entry (e : NamedContent)

namespace Token

def pieces : Token → List Piece
  | root => [.tag 82]
  | entry e => [.tag 69, .text e.1, .text e.2.text]

/-- The texts of the token can be framed. -/
def Framable : Token → Prop
  | root => True
  | entry e => Digest.Framable (utf8 e.1) ∧ Digest.Framable (utf8 e.2.text)

theorem bytes_root : root.pieces.flatMap Piece.bytes = [82] := rfl

theorem bytes_entry (e : NamedContent) : (entry e).pieces.flatMap Piece.bytes =
    69 :: (framed (utf8 e.1) ++ framed (utf8 e.2.text)) := by
  simp [pieces]

/-- The tag tells which token it is, and the fields of an entry tell where they end. -/
theorem delimited : Delimited Framable fun t => t.pieces.flatMap Piece.bytes where
  ne_nil t h := by
    cases t with
    | root => cases h
    | entry e => rw [bytes_entry] at h; cases h
  inj {t u x y} ht hu h := by
    cases t with
    | root =>
      cases u with
      | root => exact ⟨rfl, (List.cons.inj h).2⟩
      | entry e' =>
        rw [bytes_root, bytes_entry] at h
        exact absurd (List.cons.inj h).1 (by decide)
    | entry e =>
      cases u with
      | root =>
        rw [bytes_root, bytes_entry] at h
        exact absurd (List.cons.inj h).1 (by decide)
      | entry e' =>
        rw [bytes_entry, bytes_entry, List.cons_append, List.cons_append, List.append_assoc,
          List.append_assoc] at h
        obtain ⟨-, h⟩ := List.cons.inj h
        obtain ⟨hidentity, h⟩ := framed_append_inj ht.1 hu.1 h
        obtain ⟨hcontent, h⟩ := framed_append_inj ht.2 hu.2 h
        have he : e = e' :=
          Prod.ext (utf8_inj hidentity) (congrArg ContentHash.mk (utf8_inj hcontent))
        exact ⟨congrArg entry he, h⟩

end Token

/-! ## Blocks -/

/-- What one root contributes to a fingerprint, in order. -/
abbrev Block := List NamedContent

namespace Block

/-- The tokens of a block, with the mark of its root in front. -/
def tokens (b : Block) : List Token := .root :: b.map .entry

/-- Entries in front of a mark, or of nothing, are told apart from what follows. -/
theorem map_entry_append_inj : ∀ {b c : Block} {bs cs : List Block},
    b.map Token.entry ++ bs.flatMap tokens = c.map Token.entry ++ cs.flatMap tokens →
      b = c ∧ bs.flatMap tokens = cs.flatMap tokens
  | [], [], _, _, h => ⟨rfl, h⟩
  | [], e' :: c, [], cs, h => by cases h
  | [], e' :: c, _ :: _, cs, h => by cases h
  | e :: b, [], bs, [], h => by cases h
  | e :: b, [], bs, _ :: _, h => by cases h
  | e :: b, e' :: c, bs, cs, h => by
    obtain ⟨he, h⟩ := List.cons.inj h
    obtain ⟨rfl, hrest⟩ := map_entry_append_inj h
    exact ⟨congrArg (· :: b) (Token.entry.inj he), hrest⟩

/-- **The marks tell blocks apart.** -/
theorem tokens_inj : ∀ {bs cs : List Block}, bs.flatMap tokens = cs.flatMap tokens → bs = cs
  | [], [], _ => rfl
  | [], _ :: _, h => by cases h
  | _ :: _, [], h => by cases h
  | b :: bs, c :: cs, h => by
    obtain ⟨rfl, hrest⟩ := map_entry_append_inj (List.cons.inj h).2
    exact congrArg (b :: ·) (tokens_inj hrest)

end Block

namespace FingerprintEntry

def named (e : FingerprintEntry) : NamedContent := (e.identity, e.content)

def sameRoot (a b : FingerprintEntry) : Bool := a.root = b.root

theorem sameRoot_iff {a b : FingerprintEntry} : a.sameRoot b = true ↔ a.root = b.root :=
  decide_eq_true_iff

theorem root_eq_of_isChain {e : FingerprintEntry} :
    ∀ {es : List FingerprintEntry}, (e :: es).IsChain (fun a b => a.sameRoot b) →
      ∀ x ∈ e :: es, x.root = e.root
  | [], _, x, hx => by rw [List.mem_singleton.mp hx]
  | e' :: es, h, x, hx => by
    obtain ⟨hhead, htail⟩ := List.isChain_cons_cons.mp h
    rcases List.mem_cons.mp hx with rfl | hx
    · rfl
    · exact (root_eq_of_isChain htail x hx).trans (sameRoot_iff.mp hhead).symm

end FingerprintEntry

namespace Fingerprint

open FingerprintEntry (sameRoot named)

/-- The entries root by root. -/
def blocks (f : Fingerprint) : List Block := (f.entries.splitBy sameRoot).map (List.map named)

/-- The stream that is hashed for a fingerprint. -/
def summaryStream (f : Fingerprint) : Bytes :=
  stream "stratum:fingerprint:v1" (.text f.normalizer.text :: piecesFrom none f.entries)

theorem hash_eq_ofBytes (f : Fingerprint) : f.hash = .ofBytes f.summaryStream := rfl

/-- The texts of the entries. -/
def texts (f : Fingerprint) : List String :=
  f.entries.flatMap fun e => [e.identity, e.content.text]

/-! ## The stream in tokens -/

theorem piecesFrom_append_of_root {r : Nat} {es : List FingerprintEntry}
    (h : ∀ e ∈ es, e.root = r) (rest : List FingerprintEntry) :
    piecesFrom (some r) (es ++ rest) =
      ((es.map named).map Token.entry).flatMap Token.pieces ++ piecesFrom (some r) rest := by
  induction es with
  | nil => rfl
  | cons e es ih =>
    obtain ⟨he, hes⟩ := List.forall_mem_cons.mp h
    rw [List.cons_append, piecesFrom, entryPieces, if_pos (by rw [he]), he, ih hes]
    rfl

/-- The entries of one root each, those of another root after them. -/
structure ByRoot (groups : List (List FingerprintEntry)) : Prop where
  nil_notMem : [] ∉ groups
  same : ∀ g ∈ groups, g.IsChain fun a b => sameRoot a b
  next : groups.IsChain fun g h => ∃ hg hh, sameRoot (g.getLast hg) (h.head hh) = false

theorem byRoot_splitBy (es : List FingerprintEntry) : ByRoot (es.splitBy sameRoot) where
  nil_notMem := List.nil_notMem_splitBy _ _
  same _ h := List.isChain_of_mem_splitBy h
  next := List.isChain_getLast_head_splitBy _ _

namespace ByRoot

variable {e : FingerprintEntry} {es : List FingerprintEntry} {groups : List (List FingerprintEntry)}

theorem tail (h : ByRoot (es :: groups)) : ByRoot groups where
  nil_notMem hmem := h.nil_notMem (List.mem_cons_of_mem _ hmem)
  same _ hg := h.same _ (List.mem_cons_of_mem _ hg)
  next := h.next.tail

theorem splitBy_flatten (h : ByRoot groups) : groups.flatten.splitBy sameRoot = groups :=
  List.splitBy_flatten h.nil_notMem h.same h.next

theorem cons {r : Nat} (h : ByRoot groups) (hne : es ≠ []) (hsame : ∀ e ∈ es, e.root = r)
    (hother : ∀ g ∈ groups, ∀ e ∈ g, e.root ≠ r) : ByRoot (es :: groups) where
  nil_notMem hmem := by
    rcases List.mem_cons.mp hmem with heq | hmem
    · exact hne heq.symm
    · exact h.nil_notMem hmem
  same := by
    refine List.forall_mem_cons.mpr ⟨List.Pairwise.isChain ?_, h.same⟩
    refine List.pairwise_of_forall_mem_list fun a ha b hb => ?_
    exact FingerprintEntry.sameRoot_iff.mpr ((hsame a ha).trans (hsame b hb).symm)
  next := by
    refine List.isChain_cons.mpr ⟨fun g hg => ?_, h.next⟩
    have hg : g ∈ groups := List.mem_of_mem_head? hg
    have hgne : g ≠ [] := fun heq => h.nil_notMem (heq ▸ hg)
    refine ⟨hne, hgne, Bool.eq_false_iff.mpr fun hroot => ?_⟩
    refine hother g hg _ (List.head_mem hgne) ?_
    rw [← FingerprintEntry.sameRoot_iff.mp hroot, hsame _ (List.getLast_mem hne)]

theorem root_eq (h : ByRoot ((e :: es) :: groups)) : ∀ x ∈ e :: es, x.root = e.root :=
  FingerprintEntry.root_eq_of_isChain (h.same _ List.mem_cons_self)

/-- What follows the entries of a root begins with another root. -/
theorem root_ne (h : ByRoot ((e :: es) :: groups)) :
    ∀ x ∈ groups.flatten.head?, x.root ≠ e.root := by
  intro x hx heq
  cases groups with
  | nil => cases hx
  | cons g groups =>
    cases g with
    | nil => exact h.nil_notMem (List.mem_cons_of_mem _ List.mem_cons_self)
    | cons x' g =>
      obtain rfl : x' = x := Option.some.inj hx
      obtain ⟨⟨hg, hh, hdiffer⟩, -⟩ := List.isChain_cons_cons.mp h.next
      have hlast := h.root_eq _ (List.getLast_mem hg)
      exact absurd (FingerprintEntry.sameRoot_iff.mpr (hlast.trans heq.symm))
        (Bool.eq_false_iff.mp hdiffer)

end ByRoot

/-- **The pieces of entries are those of their blocks.** -/
theorem piecesFrom_flatten {previousRoot : Option Nat} {groups : List (List FingerprintEntry)}
    (h : ByRoot groups) (hfirst : ∀ e ∈ groups.flatten.head?, previousRoot ≠ some e.root) :
    piecesFrom previousRoot groups.flatten =
      ((groups.map (List.map named)).flatMap Block.tokens).flatMap Token.pieces := by
  induction groups generalizing previousRoot with
  | nil => rfl
  | cons g groups ih =>
    cases g with
    | nil => exact absurd List.mem_cons_self h.nil_notMem
    | cons e es =>
      have hrest : ∀ x ∈ groups.flatten.head?, some e.root ≠ some x.root :=
        fun x hx heq => h.root_ne x hx (Option.some.inj heq).symm
      rw [List.flatten_cons, List.cons_append, piecesFrom, entryPieces, if_neg (hfirst e rfl),
        piecesFrom_append_of_root fun x hx => h.root_eq x (List.mem_cons_of_mem _ hx),
        ih h.tail hrest]
      simp [Block.tokens, Token.pieces, named]

theorem piecesFrom_eq_blocks (f : Fingerprint) : piecesFrom none f.entries =
    (f.blocks.flatMap Block.tokens).flatMap Token.pieces := by
  have h : piecesFrom none _ = _ := piecesFrom_flatten (byRoot_splitBy f.entries)
    fun _ _ h => (by cases h)
  rwa [List.flatten_splitBy] at h

/-- The texts of the tokens are those of the entries. -/
theorem framable_tokens {f : Fingerprint} (h : ∀ t ∈ f.texts, Digest.Framable (utf8 t)) :
    ∀ t ∈ f.blocks.flatMap Block.tokens, t.Framable := by
  intro t ht
  obtain ⟨b, hb, ht⟩ := List.mem_flatMap.mp ht
  obtain ⟨es, hes, rfl⟩ := List.mem_map.mp hb
  rcases List.mem_cons.mp ht with rfl | ht
  · trivial
  · rw [List.map_map] at ht
    obtain ⟨e, he, rfl⟩ := List.mem_map.mp ht
    have he : e ∈ f.entries := by
      rw [← List.flatten_splitBy sameRoot f.entries]
      exact List.mem_flatten_of_mem hes he
    exact ⟨h _ (List.mem_flatMap.mpr ⟨e, he, List.mem_cons_self⟩),
      h _ (List.mem_flatMap.mpr ⟨e, he, List.mem_cons_of_mem _ List.mem_cons_self⟩)⟩

/-! ## Hashes -/

theorem summaryStream_eq (f : Fingerprint) : f.summaryStream =
    framed (utf8 "stratum:fingerprint:v1") ++ (framed (utf8 f.normalizer.text) ++
      (f.blocks.flatMap Block.tokens).flatMap fun t => t.pieces.flatMap Piece.bytes) := by
  unfold summaryStream stream
  rw [piecesFrom_eq_blocks, List.flatMap_cons, Piece.bytes_text, List.flatMap_assoc]

/-- **Equal streams are made of one normalizer and the same blocks.** -/
theorem eq_of_summaryStream_eq {f g : Fingerprint} (hf : ∀ t ∈ f.texts, Digest.Framable (utf8 t))
    (hg : ∀ t ∈ g.texts, Digest.Framable (utf8 t)) (h : f.summaryStream = g.summaryStream) :
    f.normalizer = g.normalizer ∧ f.blocks = g.blocks := by
  rw [summaryStream_eq, summaryStream_eq] at h
  obtain ⟨hnormalizer, hblocks⟩ := framed_append_inj f.normalizer.framable_text
    g.normalizer.framable_text (List.append_cancel_left h)
  have htokens := Token.delimited.flatMap_inj (framable_tokens hf) (framable_tokens hg) hblocks
  exact ⟨Normalizer.text_inj.mp (utf8_inj hnormalizer), Block.tokens_inj htokens⟩

/-- Whatever is hashed, one normalizer and the same blocks make one hash. -/
theorem hash_eq_of_blocks_eq {f g : Fingerprint} (hn : f.normalizer = g.normalizer)
    (h : f.blocks = g.blocks) : f.hash = g.hash := by
  rw [hash_eq_ofBytes, hash_eq_ofBytes, summaryStream_eq, summaryStream_eq, hn, h]

/-- **Fingerprints have one hash when they have one normalizer and the same blocks.** -/
theorem hash_eq_iff {f g : Fingerprint} (hc : CollisionFree [f.summaryStream, g.summaryStream])
    (hf : ∀ t ∈ f.texts, Digest.Framable (utf8 t))
    (hg : ∀ t ∈ g.texts, Digest.Framable (utf8 t)) :
    f.hash = g.hash ↔ f.normalizer = g.normalizer ∧ f.blocks = g.blocks := by
  constructor
  · intro h
    exact eq_of_summaryStream_eq hf hg
      (hc.stream_eq List.mem_cons_self (List.mem_cons_of_mem _ List.mem_cons_self) h)
  · exact fun ⟨hnormalizer, hblocks⟩ => hash_eq_of_blocks_eq hnormalizer hblocks

end Fingerprint

namespace Fingerprinter

open FingerprintEntry (sameRoot named)

/-! ## Contributions of roots -/

/-- What a root contributes: its entries in order. -/
def block (f : Fingerprinter) (root : Location) : Block := (f.rootEntries root).mergeSort entryLE

theorem perm_block (f : Fingerprinter) (root : Location) :
    (f.block root).Perm (f.rootEntries root) :=
  List.mergeSort_perm _ _

/-- Blocks are sorted, so they are equal when the entries are the same up to order. -/
theorem block_eq_iff {f g : Fingerprinter} {l m : Location} :
    f.block l = g.block m ↔ (f.rootEntries l).Perm (g.rootEntries m) := by
  constructor
  · intro h
    exact (f.perm_block l).symm.trans (h ▸ g.perm_block m)
  · intro h
    unfold block
    rw [entryLE_eq, mergeSort_eq_of_perm h]

/-- The blocks of the roots that contribute an entry, in the order of roots. -/
def blocks (f : Fingerprinter) (s : Snapshot) : List Block :=
  (s.roots.map f.block).filter fun b => !b.isEmpty

theorem map_named_numberedEntries (f : Fingerprinter) (root : Location) (number : Nat) :
    (f.numberedEntries root number).map named = f.block root := by
  unfold numberedEntries block
  rw [List.map_map]
  exact List.map_id _

theorem root_of_mem_numberedEntries {f : Fingerprinter} {root : Location} {number : Nat}
    {e : FingerprintEntry} (h : e ∈ f.numberedEntries root number) : e.root = number := by
  obtain ⟨-, -, rfl⟩ := List.mem_map.mp h
  rfl

theorem root_ge_of_mem_entriesFrom {f : Fingerprinter} {roots : List Location} {first : Nat}
    {e : FingerprintEntry} (h : e ∈ f.entriesFrom first roots) : first ≤ e.root := by
  obtain ⟨⟨root, number⟩, hmem, he⟩ := List.mem_flatMap.mp h
  rw [root_of_mem_numberedEntries he]
  exact (List.mem_zipIdx hmem).1

/-- The entries of the roots, root by root, are the blocks of the roots that have an entry. -/
theorem exists_byRoot_entriesFrom (f : Fingerprinter) (roots : List Location) (first : Nat) :
    ∃ groups, Fingerprint.ByRoot groups ∧ groups.flatten = f.entriesFrom first roots ∧
      groups.map (List.map named) = (roots.map f.block).filter fun b => !b.isEmpty := by
  induction roots generalizing first with
  | nil => exact ⟨[], ⟨List.not_mem_nil, fun _ h => (by cases h), List.isChain_nil⟩, rfl, rfl⟩
  | cons root roots ih =>
    obtain ⟨groups, hroot, hflatten, hblocks⟩ := ih (first + 1)
    rw [entriesFrom_cons, List.map_cons, ← map_named_numberedEntries f root first]
    by_cases hne : f.numberedEntries root first = []
    · -- the root leaves no trace
      refine ⟨groups, hroot, ?_, ?_⟩
      · rw [hne, hflatten, List.nil_append]
      · rw [hne, hblocks]
        rfl
    · refine ⟨f.numberedEntries root first :: groups, ?_, ?_, ?_⟩
      · refine hroot.cons hne (fun e he => root_of_mem_numberedEntries he) fun g hg e he => ?_
        have hlater : e ∈ f.entriesFrom (first + 1) roots :=
          hflatten ▸ List.mem_flatten_of_mem hg he
        have := root_ge_of_mem_entriesFrom hlater
        omega
      · rw [List.flatten_cons, hflatten]
      · rw [List.map_cons, hblocks, List.filter_cons_of_pos]
        simpa using hne

/-- **A fingerprint has the blocks of the roots that contribute an entry.** -/
theorem blocks_fresh (f : Fingerprinter) (s : Snapshot) : (f.fresh s).blocks = f.blocks s := by
  obtain ⟨groups, hroot, hflatten, hblocks⟩ := exists_byRoot_entriesFrom f s.roots 0
  have hentries : (f.fresh s).entries = groups.flatten := hflatten.symm
  unfold Fingerprint.blocks blocks
  rw [hentries, hroot.splitBy_flatten, hblocks]

/-- **Fingerprints made by one fingerprinter have one hash when the blocks are the same.** -/
theorem hash_fingerprint_eq_iff {f : Fingerprinter} {s t : Snapshot}
    (hc : CollisionFree [(f.fresh s).summaryStream, (f.fresh t).summaryStream])
    (htexts : ∀ x ∈ (f.fresh s).texts ++ (f.fresh t).texts, Framable (utf8 x)) :
    (f.fingerprint s none).hash = (f.fingerprint t none).hash ↔ f.blocks s = f.blocks t := by
  show (f.fresh s).hash = (f.fresh t).hash ↔ _
  rw [Fingerprint.hash_eq_iff hc (fun x hx => htexts x (List.mem_append_left _ hx))
    (fun x hx => htexts x (List.mem_append_right _ hx)), blocks_fresh, blocks_fresh]
  exact and_iff_right rfl

/-! ## Faithfulness -/

/--
**The hash of a fingerprint is faithful.** Two fingerprints that fingerprinters made, with whatever
hints, have one hash exactly when they have one normalizer and the same blocks. The blocks are what
the roots of the snapshot contribute, in the order of roots; a root without an entry leaves no
trace.
-/
theorem hash_eq_iff_blocks_eq {runs runs' : List Run} {p q : Fingerprint}
    (hp : chained runs = some p) (hq : chained runs' = some q)
    (hc : CollisionFree [p.summaryStream, q.summaryStream])
    (htexts : ∀ t ∈ p.texts ++ q.texts, Framable (utf8 t)) :
    (p.hash = q.hash ↔ p.normalizer = q.normalizer ∧ p.blocks = q.blocks) ∧
      (∃ f s, (f, s) ∈ runs ∧ p = f.fresh s ∧ p.blocks = f.blocks s) ∧
      ∃ g t, (g, t) ∈ runs' ∧ q = g.fresh t ∧ q.blocks = g.blocks t := by
  refine ⟨?_, ?_, ?_⟩
  · exact Fingerprint.hash_eq_iff hc (fun t ht => htexts t (List.mem_append_left _ ht))
      fun t ht => htexts t (List.mem_append_right _ ht)
  · obtain ⟨f, s, hmem, rfl⟩ := exists_fresh_of_chained hp
    exact ⟨f, s, hmem, rfl, blocks_fresh f s⟩
  · obtain ⟨g, t, hmem, rfl⟩ := exists_fresh_of_chained hq
    exact ⟨g, t, hmem, rfl, blocks_fresh g t⟩

/-- Two files, with nothing at a place between them. -/
def separateFiles : Snapshot := ⟨[.file ⟨"/a"⟩ ⟨"1"⟩, .missing ⟨"/m"⟩, .file ⟨"/b"⟩ ⟨"2"⟩]⟩

/-- The same two files in a directory. -/
def filesOfDirectory : Snapshot :=
  ⟨[.directory ⟨"/r"⟩ [.file ⟨"/r/a"⟩ ⟨"1"⟩, .file ⟨"/r/b"⟩ ⟨"2"⟩]]⟩

theorem entries_separateFiles : ignoredPath.entries separateFiles =
    [⟨0, "", ⟨"1"⟩⟩, ⟨2, "", ⟨"2"⟩⟩] := by
  simp [entries, separateFiles, numberedEntries, rootEntries, Location.visit, contentEntry]

theorem entries_filesOfDirectory : ignoredPath.entries filesOfDirectory =
    [⟨0, "", ⟨"1"⟩⟩, ⟨0, "", ⟨"2"⟩⟩] := by
  have hle : entryLE ("", ⟨"1"⟩) ("", ⟨"2"⟩) = true := by decide
  simp [entries, filesOfDirectory, numberedEntries, rootEntries, Location.visit, contentEntry,
    Location.visitChildren, List.mergeSort, hle]

/-- The two fingerprints have the same entries but for the roots, which the hash tells apart. -/
theorem hash_eq_iff_blocks_eq_separateFiles :
    chained [(ignoredPath, separateFiles)] = some (ignoredPath.fresh separateFiles) ∧
      chained [(ignoredPath, filesOfDirectory)] = some (ignoredPath.fresh filesOfDirectory) ∧
      CollisionFree [(ignoredPath.fresh separateFiles).summaryStream,
        (ignoredPath.fresh filesOfDirectory).summaryStream] ∧
      (∀ t ∈ (ignoredPath.fresh separateFiles).texts ++ (ignoredPath.fresh filesOfDirectory).texts,
        Framable (utf8 t)) ∧
      (ignoredPath.fresh separateFiles).hash ≠ (ignoredPath.fresh filesOfDirectory).hash := by
  have hc : CollisionFree [(ignoredPath.fresh separateFiles).summaryStream,
      (ignoredPath.fresh filesOfDirectory).summaryStream] := by
    simp only [Fingerprint.summaryStream, fresh, entries_separateFiles, entries_filesOfDirectory]
    decide +kernel
  have htexts : ∀ t ∈ (ignoredPath.fresh separateFiles).texts ++
      (ignoredPath.fresh filesOfDirectory).texts, Framable (utf8 t) := by
    simp only [Fingerprint.texts, fresh, entries_separateFiles, entries_filesOfDirectory]
    decide
  have hblocks : (ignoredPath.fresh separateFiles).blocks ≠
      (ignoredPath.fresh filesOfDirectory).blocks := by
    simp only [Fingerprint.blocks, fresh, entries_separateFiles, entries_filesOfDirectory]
    decide
  have hseparate : chained [(ignoredPath, separateFiles)] =
      some (ignoredPath.fresh separateFiles) := rfl
  have hdirectory : chained [(ignoredPath, filesOfDirectory)] =
      some (ignoredPath.fresh filesOfDirectory) := rfl
  refine ⟨hseparate, hdirectory, hc, htexts, fun h => hblocks ?_⟩
  exact ((hash_eq_iff_blocks_eq hseparate hdirectory hc htexts).1.mp h).2

end Fingerprinter

end BuildInputs

import BuildInputs.Proofs.Fingerprint.Content
import BuildInputs.Proofs.Fingerprint.StrategyKey
import BuildInputs.Proofs.Snapshot.Merkle

/-!
# Previous fingerprints do not show

A fingerprinter that is handed a previous fingerprint may return it. It does so when three hashes
agree, and then the previous fingerprint is the one it would have made:

1. any fingerprint is one that some fingerprinter made afresh, however long the chain of hints was
   that led to it (`exists_fresh_of_chained`),
2. equal strategy keys mean equal fingerprinters (`eq_of_strategyKey_eq`),
3. equal signatures mean alike roots at the same places, hence equal entries.
-/

namespace BuildInputs

open Digest

namespace Fingerprinter

/-! ## Chains of runs -/

/-- A fingerprinter with the snapshot that it is given. -/
abbrev Run := Fingerprinter × Snapshot

/--
The fingerprint of the first run in the list. What the runs after it made, the last one first, is
its hint; the last run of the list has none.
-/
def chained : List Run → Option Fingerprint
  | [] => none
  | (f, s) :: earlier => some (f.fingerprint s (chained earlier))

/-- The streams that are hashed for the strategy keys and snapshots of runs. -/
def streams (runs : List Run) : List Bytes :=
  runs.flatMap fun (f, s) => f.strategyStream :: s.streams

/-- The patterns of the fingerprinters and the texts of the snapshots. -/
def texts (runs : List Run) : List String := runs.flatMap fun (f, s) => f.patterns ++ s.texts

/-- A fingerprint that is handed on along a chain was made afresh by one of the runs. -/
theorem exists_fresh_of_chained {runs : List Run} {p : Fingerprint} (h : chained runs = some p) :
    ∃ g t, (g, t) ∈ runs ∧ p = g.fresh t := by
  induction runs generalizing p with
  | nil => cases h
  | cons run earlier ih =>
    obtain ⟨f, s⟩ := run
    rw [chained, Option.some.injEq] at h
    cases hint : chained earlier with
    | none =>
      rw [hint] at h
      exact ⟨f, s, List.mem_cons_self, h.symm⟩
    | some q =>
      rw [hint, fingerprint] at h
      split at h
      · -- the hint was returned as it is
        obtain ⟨g, t, hmem, hq⟩ := ih hint
        exact ⟨g, t, List.mem_cons_of_mem _ hmem, h ▸ hq⟩
      · exact ⟨f, s, List.mem_cons_self, h.symm⟩

/-! ## Reuse -/

/-- The streams of the run are known, and its texts can be framed. -/
structure Hashed (known : List Bytes) (f : Fingerprinter) (s : Snapshot) : Prop where
  strategy : f.strategyStream ∈ known
  patterns : ∀ p ∈ f.patterns, Framable (utf8 p)
  snapshot : s.Hashed known

theorem hashed_of_mem {runs : List Run} (htexts : ∀ t ∈ texts runs, Framable (utf8 t))
    {f : Fingerprinter} {s : Snapshot} (h : (f, s) ∈ runs) : Hashed (streams runs) f s where
  strategy := List.mem_flatMap.mpr ⟨_, h, List.mem_cons_self⟩
  patterns p hp := htexts p (List.mem_flatMap.mpr ⟨_, h, List.mem_append_left _ hp⟩)
  snapshot :=
    { streams := fun _ hb => List.mem_flatMap.mpr ⟨_, h, List.mem_cons_of_mem _ hb⟩
      texts := fun t ht => htexts t (List.mem_flatMap.mpr ⟨_, h, List.mem_append_right _ ht⟩) }

/-- A fingerprint that can be reused is the one that would have been made. -/
theorem fresh_eq_of_canReuse {known : List Bytes} (hc : CollisionFree known) {f g : Fingerprinter}
    {s t : Snapshot} (hf : Hashed known f s) (hg : Hashed known g t)
    (h : f.canReuse s (g.fresh t) = true) : g.fresh t = f.fresh s := by
  unfold canReuse at h
  rw [Bool.and_eq_true, Bool.and_eq_true] at h
  have hstrategy : g.strategyKey = f.strategyKey := of_decide_eq_true h.1.2
  have hsource : t.signature = s.signature := of_decide_eq_true h.2
  obtain rfl : g = f :=
    eq_of_strategyKey_eq hg.patterns hf.patterns hc hg.strategy hf.strategy hstrategy
  have hroots := Snapshot.forall₂_alike_of_signature_eq hc hg.snapshot hf.snapshot hsource
  have hentries : g.entries t = g.entries s :=
    entries_eq_of_alikeRoots g (hroots.imp fun _ _ ⟨halike, hpath⟩ => ⟨halike, fun _ => hpath⟩)
  unfold fresh
  rw [hentries, hsource]

/--
**A hint never shows.** Whatever fingerprinter made the previous fingerprint, of whatever snapshot
and with whatever hint of its own: the fingerprint is the one that is made without it, in its
normalizer, its entries and their order, its strategy key and its source, hence also in its hash.
-/
theorem fingerprint_chained_eq (f : Fingerprinter) (s : Snapshot) (earlier : List Run)
    (hc : CollisionFree (streams ((f, s) :: earlier)))
    (htexts : ∀ t ∈ texts ((f, s) :: earlier), Framable (utf8 t)) :
    f.fingerprint s (chained earlier) = f.fingerprint s none := by
  have hf := hashed_of_mem htexts (List.mem_cons_self (a := (f, s)))
  cases hint : chained earlier with
  | none => rfl
  | some p =>
    obtain ⟨g, t, hmem, rfl⟩ := exists_fresh_of_chained hint
    have hg := hashed_of_mem htexts (List.mem_cons_of_mem _ hmem)
    show (if f.canReuse s (g.fresh t) then g.fresh t else f.fresh s) = f.fresh s
    split
    · next h => exact fresh_eq_of_canReuse hc hf hg h
    · rfl

/-- A directory with two files. -/
def sampleFiles : Snapshot :=
  ⟨[.directory ⟨"/r"⟩ [.file ⟨"/r/a"⟩ ⟨"1"⟩, .file ⟨"/r/b"⟩ ⟨"2"⟩]]⟩

/-- The same directory with its files in the other order and at other places. -/
def movedSampleFiles : Snapshot :=
  ⟨[.directory ⟨"/r"⟩ [.file ⟨"b"⟩ ⟨"2"⟩, .file ⟨"/x/a"⟩ ⟨"1"⟩]]⟩

/-- Two runs on the moved files, the later one with the hint of the earlier one. -/
def sampleRuns : List Run := [(relativePath, movedSampleFiles), (nameOnly, movedSampleFiles)]

set_option maxRecDepth 10000 in
theorem collisionFree_sampleRuns :
    CollisionFree (streams ((relativePath, sampleFiles) :: sampleRuns)) := by
  -- sorting does not evaluate by itself
  simp only [streams, sampleRuns, sampleFiles, movedSampleFiles, Snapshot.streams,
    Snapshot.signatureStream, Location.streams, Location.streamsBelow, directoryStream,
    List.flatMap_cons, List.flatMap_nil, Location.signaturePieces, Location.hash?, directoryHash,
    Location.childRecords, ChildRecord.sort_pair]
  decide +kernel

theorem fingerprint_chained_eq_sampleFiles :
    CollisionFree (streams ((relativePath, sampleFiles) :: sampleRuns)) ∧
      (∀ t ∈ texts ((relativePath, sampleFiles) :: sampleRuns), Framable (utf8 t)) ∧
      (chained sampleRuns).isSome = true ∧
      relativePath.fingerprint sampleFiles (chained sampleRuns) =
        relativePath.fingerprint sampleFiles none := by
  have htexts : ∀ t ∈ texts ((relativePath, sampleFiles) :: sampleRuns), Framable (utf8 t) := by
    decide
  exact ⟨collisionFree_sampleRuns, htexts, rfl,
    fingerprint_chained_eq relativePath sampleFiles sampleRuns collisionFree_sampleRuns htexts⟩

end Fingerprinter

end BuildInputs

import BuildInputs.Fingerprint.Fingerprinter
import BuildInputs.Proofs.Digest.Decoding

/-!
# Strategy keys

The strategy key of a fingerprinter is the hash of a stream of fields: the name of the normalizer,
then the patterns. A stream determines its fields, so a key determines the fingerprinter, unless the
hash function maps the streams of two fingerprinters to one hash.

* `strategyStream_eq_iff` — the stream determines the normalizer and the patterns
* `strategyKey_eq_iff` — so does the key, among streams without a collision
* `eq_of_strategyKey_eq` — fingerprinters with one key are equal, since patterns denote one list of
  globs
-/

namespace BuildInputs

open Digest

theorem IgnoreList.eq_of_patterns_eq {l m : IgnoreList} (h : l.patterns = m.patterns) : l = m := by
  obtain ⟨patterns, globs, hl⟩ := l
  obtain ⟨patterns', globs', hm⟩ := m
  obtain rfl : patterns = patterns' := h
  obtain rfl : globs = globs' := Except.ok.inj (hl.symm.trans hm)
  rfl

theorem Normalizer.framable_text (n : Normalizer) : Framable (utf8 n.text) := by
  cases n <;> decide

theorem Normalizer.text_inj {n m : Normalizer} : n.text = m.text ↔ n = m := by
  cases n <;> cases m <;> decide

namespace Fingerprinter

variable {f g : Fingerprinter}

theorem eq_of_patterns_eq (hn : f.normalizer = g.normalizer) (hp : f.patterns = g.patterns) :
    f = g := by
  cases f <;> cases g <;> cases hn
  case classPath.classPath.refl =>
    exact congrArg classPath (IgnoreList.eq_of_patterns_eq hp)
  case compileClassPath.compileClassPath.refl =>
    exact congrArg compileClassPath (IgnoreList.eq_of_patterns_eq hp)
  all_goals rfl

/-! ## Streams -/

/-- The stream that is hashed for the strategy key. -/
def strategyStream (f : Fingerprinter) : Bytes :=
  stream "stratum:strategy:v1" (.text f.normalizer.text :: f.patterns.map .text)

theorem isField_strategy (hf : ∀ p ∈ f.patterns, Framable (utf8 p)) :
    ∀ p ∈ Piece.text f.normalizer.text :: f.patterns.map Piece.text, p.IsField :=
  isField_domain_cons f.normalizer.framable_text (List.forall_mem_map.mpr hf)

variable (hf : ∀ p ∈ f.patterns, Framable (utf8 p)) (hg : ∀ p ∈ g.patterns, Framable (utf8 p))

include hf hg

/-- **The stream determines the normalizer and the patterns.** -/
theorem strategyStream_eq_iff : f.strategyStream = g.strategyStream ↔
    f.normalizer = g.normalizer ∧ f.patterns = g.patterns := by
  have hdomain : Framable (utf8 "stratum:strategy:v1") := by decide
  have htexts : Function.Injective Piece.text := fun _ _ => Piece.text_inj.mp
  have hfields := stream_eq_iff hdomain hdomain (isField_strategy hf) (isField_strategy hg)
  rw [eq_self, true_and, List.cons.injEq, Piece.text_inj, Normalizer.text_inj,
    List.map_inj_right htexts] at hfields
  exact hfields

/-! ## Keys -/

/-- **The key determines the normalizer and the patterns**, among streams without a collision. -/
theorem strategyKey_eq_iff {known : List Bytes} (hc : CollisionFree known)
    (hfs : f.strategyStream ∈ known) (hgs : g.strategyStream ∈ known) :
    f.strategyKey = g.strategyKey ↔ f.normalizer = g.normalizer ∧ f.patterns = g.patterns := by
  rw [← strategyStream_eq_iff hf hg]
  constructor
  · exact hc.stream_eq hfs hgs
  · exact congrArg ContentHash.ofBytes

/-- **Fingerprinters with one strategy key are equal.** -/
theorem eq_of_strategyKey_eq {known : List Bytes} (hc : CollisionFree known)
    (hfs : f.strategyStream ∈ known) (hgs : g.strategyStream ∈ known)
    (h : f.strategyKey = g.strategyKey) : f = g := by
  obtain ⟨hnormalizer, hpatterns⟩ := (strategyKey_eq_iff hf hg hc hfs hgs).mp h
  exact eq_of_patterns_eq hnormalizer hpatterns

end Fingerprinter

/--
**Streams of fields decode uniquely.** Two streams without tags are equal just if they have one
domain and the same fields in the same order; and one begins the other just if they have one domain
and its fields begin those of the other. So, unless their two streams collide, two fingerprinters
have one strategy key just if they have one normalizer and the same patterns, in the same order and
each as often.
-/
theorem streams_decode_uniquely :
    (∀ (d e : String) (ps qs : List Piece), Framable (utf8 d) → Framable (utf8 e) →
      (∀ p ∈ ps, p.IsField) → (∀ q ∈ qs, q.IsField) →
        (stream d ps = stream e qs ↔ d = e ∧ ps = qs) ∧
          (stream d ps <+: stream e qs ↔ d = e ∧ ps <+: qs)) ∧
      ∀ f g : Fingerprinter, (∀ p ∈ f.patterns, Framable (utf8 p)) →
        (∀ p ∈ g.patterns, Framable (utf8 p)) →
          CollisionFree [f.strategyStream, g.strategyStream] →
            (f.strategyKey = g.strategyKey ↔
              f.normalizer = g.normalizer ∧ f.patterns = g.patterns) := by
  constructor
  · intro d e ps qs hd he hps hqs
    exact ⟨stream_eq_iff hd he hps hqs, stream_isPrefix_iff hd he hps hqs⟩
  · intro f g hf hg hc
    exact Fingerprinter.strategyKey_eq_iff hf hg hc (by simp) (by simp)

/-- Two patterns. -/
def starLast : Fingerprinter := .classPath ⟨["a*", "*"], _, rfl⟩

/-- Two other patterns, which read the same if they are written without a gap. -/
def starsLast : Fingerprinter := .classPath ⟨["a", "**"], _, rfl⟩

theorem streams_decode_uniquely_starLast :
    CollisionFree [starLast.strategyStream, starsLast.strategyStream] ∧
      String.join starLast.patterns = String.join starsLast.patterns ∧
      starLast.strategyKey ≠ starsLast.strategyKey ∧
      ¬ stream "test" [.text "ab", .text "c"] <+: stream "test" [.text "ab", .text "cd"] := by
  have hc : CollisionFree [starLast.strategyStream, starsLast.strategyStream] := by decide +kernel
  obtain ⟨hstreams, hkeys⟩ := streams_decode_uniquely
  refine ⟨hc, by decide, ?_, ?_⟩
  · rw [Ne, hkeys _ _ (by decide) (by decide) hc]
    decide
  · rw [(hstreams "test" "test" _ _ (by decide) (by decide) (by decide) (by decide)).2]
    decide

end BuildInputs

import Mathlib.Algebra.Group.Nat.Defs
import Mathlib.Data.List.Flatten
import BuildInputs.Digest.Framing

/-!
# Reading a stream back

Two streams that are equal were made of the same things. A field can be read back because its length
stands in front of it, and a sequence of fields or of whole records because each of them can be cut
off the front of the stream.

* `framed_append_inj` — equal streams that start with a field start with the same field
* `Delimited.split` — a stream of records that continues another stream continues its records
* `stream_eq_iff`, `stream_isPrefix_iff` — a stream of fields determines its domain and its fields
* `ContentHash.ofBytes_inj` — the text of a hash stands for one hash only

Lengths are written in eight bytes, so all this holds of fields that are shorter than `2 ^ 64` bytes
(`Framable`).
-/

namespace BuildInputs.Digest

/-! ## Numbers -/

theorem littleEndian_succ (count n : Nat) :
    littleEndian (count + 1) n = n.toUInt8 :: littleEndian count (n / 256) := by
  have hshift (i : Nat) : n >>> (8 * (i + 1)) = (n / 256) >>> (8 * i) := by
    rw [Nat.mul_add, Nat.add_comm, Nat.shiftRight_add, Nat.shiftRight_eq_div_pow n]
  unfold littleEndian
  rw [List.range_succ_eq_map, List.map_cons, List.map_map]
  simp [Function.comp_def, hshift]

/-- **A number that fits is determined by its bytes.** -/
theorem littleEndian_inj {count : Nat} :
    ∀ {m n : Nat}, m < 256 ^ count → n < 256 ^ count →
      littleEndian count m = littleEndian count n → m = n := by
  induction count with
  | zero =>
    intro m n hm hn _
    rw [Nat.pow_zero] at hm hn
    omega
  | succ count ih =>
    intro m n hm hn h
    rw [littleEndian_succ, littleEndian_succ] at h
    obtain ⟨hbyte, hrest⟩ := List.cons.inj h
    have hlow : m % 256 = n % 256 := by simpa using congrArg UInt8.toNat hbyte
    have hhigh : m / 256 = n / 256 := by
      rw [Nat.pow_succ] at hm hn
      exact ih (by omega) (by omega) hrest
    omega

@[simp] theorem length_littleEndian (count n : Nat) : (littleEndian count n).length = count := by
  simp [littleEndian]

/-! ## Fields -/

/-- The length of the field fits in the eight bytes in front of it. In memory no field is longer. -/
def Framable (content : Bytes) : Prop := content.length < 2 ^ 64

instance (content : Bytes) : Decidable (Framable content) :=
  inferInstanceAs (Decidable (content.length < 2 ^ 64))

/-- **Equal streams that start with a field start with the same field.** -/
theorem framed_append_inj {a b x y : Bytes} (ha : Framable a) (hb : Framable b)
    (h : framed a ++ x = framed b ++ y) : a = b ∧ x = y := by
  unfold framed at h
  rw [List.append_assoc, List.append_assoc] at h
  obtain ⟨hlength, hrest⟩ := List.append_inj h (by simp)
  exact List.append_inj hrest (littleEndian_inj ha hb hlength)

theorem framed_ne_nil (a : Bytes) : framed a ≠ [] := by
  intro h
  have := congrArg List.length h
  simp [framed] at this

@[simp] theorem Piece.bytes_text (s : String) : (Piece.text s).bytes = framed (utf8 s) := rfl

@[simp] theorem Piece.bytes_tag (t : UInt8) : (Piece.tag t).bytes = [t] := rfl

/-! ## Sequences of records -/

/--
Records whose code can be cut off the front of any stream: no code is empty, and the code of a valid
record tells the record and where it ends.
-/
structure Delimited {α : Type} (valid : α → Prop) (code : α → Bytes) : Prop where
  ne_nil : ∀ a, code a ≠ []
  inj : ∀ {a b x y}, valid a → valid b → code a ++ x = code b ++ y → a = b ∧ x = y

variable {α : Type} {valid : α → Prop} {code : α → Bytes}

/-- **A stream of records that continues another one continues its records.** -/
theorem Delimited.split (hd : Delimited valid code) :
    ∀ {as bs : List α} {x : Bytes}, (∀ a ∈ as, valid a) → (∀ b ∈ bs, valid b) →
      as.flatMap code ++ x = bs.flatMap code → ∃ cs, bs = as ++ cs ∧ x = cs.flatMap code := by
  intro as
  induction as with
  | nil => exact fun _ _ h => ⟨_, rfl, h⟩
  | cons a as ih =>
    intro bs x ha hb h
    rw [List.flatMap_cons, List.append_assoc] at h
    cases bs with
    | nil => exact absurd (List.append_eq_nil_iff.mp h).1 (hd.ne_nil a)
    | cons b bs =>
      rw [List.flatMap_cons] at h
      have ⟨ha, has⟩ := List.forall_mem_cons.mp ha
      have ⟨hb, hbs⟩ := List.forall_mem_cons.mp hb
      obtain ⟨rfl, hrest⟩ := hd.inj ha hb h
      obtain ⟨cs, rfl, hx⟩ := ih has hbs hrest
      exact ⟨cs, rfl, hx⟩

/-- Equal streams of records are streams of the same records. -/
theorem Delimited.flatMap_inj (hd : Delimited valid code) {as bs : List α}
    (ha : ∀ a ∈ as, valid a) (hb : ∀ b ∈ bs, valid b)
    (h : as.flatMap code = bs.flatMap code) : as = bs := by
  obtain ⟨cs, rfl, hx⟩ := hd.split (x := []) ha hb (by rw [List.append_nil]; exact h)
  cases cs with
  | nil => rw [List.append_nil]
  | cons c cs =>
    rw [List.flatMap_cons] at hx
    exact absurd (List.append_eq_nil_iff.mp hx.symm).1 (hd.ne_nil c)

/-- **A stream of records begins another one just if its records begin those of the other.** -/
theorem Delimited.isPrefix_iff (hd : Delimited valid code) {as bs : List α}
    (ha : ∀ a ∈ as, valid a) (hb : ∀ b ∈ bs, valid b) :
    as.flatMap code <+: bs.flatMap code ↔ as <+: bs := by
  constructor
  · rintro ⟨x, hx⟩
    obtain ⟨cs, rfl, -⟩ := hd.split ha hb hx
    exact List.prefix_append as cs
  · rintro ⟨cs, rfl⟩
    rw [List.flatMap_append]
    exact List.prefix_append _ _

/-- A stream of records in a domain determines them. -/
theorem stream_inj {pieces : α → List Piece}
    (hd : Delimited valid fun a => (pieces a).flatMap Piece.bytes) {domain : String}
    {as bs : List α} (ha : ∀ a ∈ as, valid a) (hb : ∀ b ∈ bs, valid b)
    (h : stream domain (as.flatMap pieces) = stream domain (bs.flatMap pieces)) : as = bs := by
  unfold stream at h
  rw [List.flatMap_assoc, List.flatMap_assoc] at h
  exact hd.flatMap_inj ha hb (List.append_cancel_left h)

/-! ## Texts -/

theorem utf8_inj {s t : String} (h : utf8 s = utf8 t) : s = t := by
  unfold utf8 at h
  rw [← String.toByteArray_inj]
  exact ByteArray.ext (Array.toList_inj.mp h)

@[simp] theorem length_utf8 (s : String) : (utf8 s).length = s.utf8ByteSize := rfl

theorem utf8_ofList (l : List Char) : utf8 (String.ofList l) = l.flatMap String.utf8EncodeChar := by
  simp [utf8, List.utf8Encode]

/-- What is written in a subsequence of the characters takes no more bytes. -/
theorem utf8ByteSize_ofList_le {l m : List Char} (h : l.Sublist m) :
    (String.ofList l).utf8ByteSize ≤ (String.ofList m).utf8ByteSize := by
  rw [← length_utf8, ← length_utf8, utf8_ofList, utf8_ofList]
  exact (h.flatMap _).length_le

/-! ## Streams of fields -/

/-- A field, and no tag, whose length fits in front of it. Texts and hashes are put as fields. -/
def Piece.IsField : Piece → Prop
  | .tag _ => False
  | .field content => Framable content

instance : DecidablePred Piece.IsField
  | .tag _ => inferInstanceAs (Decidable False)
  | .field content => inferInstanceAs (Decidable (Framable content))

theorem delimited_field : Delimited Piece.IsField Piece.bytes where
  ne_nil p := by
    cases p with
    | tag t => exact List.cons_ne_nil t []
    | field content => exact framed_ne_nil content
  inj {p q x y} hp hq h := by
    cases p with
    | tag t => exact hp.elim
    | field a =>
      cases q with
      | tag t => exact hq.elim
      | field b =>
        obtain ⟨rfl, hrest⟩ := framed_append_inj hp hq h
        exact ⟨rfl, hrest⟩

theorem Piece.text_inj {s t : String} : Piece.text s = Piece.text t ↔ s = t := by
  constructor
  · intro h
    exact utf8_inj (Piece.field.inj h)
  · rintro rfl
    rfl

/-- The domain is the first field of its stream. -/
theorem isField_domain_cons {d : String} {ps : List Piece} (hd : Framable (utf8 d))
    (hps : ∀ p ∈ ps, p.IsField) : ∀ p ∈ Piece.text d :: ps, p.IsField :=
  List.forall_mem_cons.mpr ⟨hd, hps⟩

section Fields

variable {d e : String} {ps qs : List Piece} (hd : Framable (utf8 d)) (he : Framable (utf8 e))
  (hps : ∀ p ∈ ps, p.IsField) (hqs : ∀ q ∈ qs, q.IsField)

include hd he hps hqs

/-- **Streams of fields are equal just if the domains and the fields are.** -/
theorem stream_eq_iff : stream d ps = stream e qs ↔ d = e ∧ ps = qs := by
  constructor
  · intro h
    have hfields : Piece.text d :: ps = Piece.text e :: qs :=
      delimited_field.flatMap_inj (isField_domain_cons hd hps) (isField_domain_cons he hqs) h
    rwa [List.cons.injEq, Piece.text_inj] at hfields
  · rintro ⟨rfl, rfl⟩
    rfl

/-- **A stream of fields begins another one just if its fields begin those of the other.** -/
theorem stream_isPrefix_iff : stream d ps <+: stream e qs ↔ d = e ∧ ps <+: qs := by
  have hfields : stream d ps <+: stream e qs ↔ Piece.text d :: ps <+: Piece.text e :: qs :=
    delimited_field.isPrefix_iff (isField_domain_cons hd hps) (isField_domain_cons he hqs)
  rwa [List.cons_prefix_cons, Piece.text_inj] at hfields

end Fields

/-! ## Hashes -/

theorem hexDigit_inj {m n : Nat} (hm : m < 16) (hn : n < 16) (h : hexDigit m = hexDigit n) :
    m = n := by
  have hall : ∀ i ∈ List.range 16, ∀ j ∈ List.range 16, hexDigit i = hexDigit j → i = j := by
    decide
  exact hall m (List.mem_range.mpr hm) n (List.mem_range.mpr hn) h

theorem hex_cons (b : UInt8) (bs : Bytes) :
    hex (b :: bs) = hexDigit (b.toNat / 16) :: hexDigit (b.toNat % 16) :: hex bs := rfl

/-- Two digits for every byte, so bytes can be read back from their digits. -/
theorem hex_inj : ∀ {a b : Bytes}, hex a = hex b → a = b
  | [], [], _ => rfl
  | [], b :: bs, h => by rw [hex_cons] at h; cases h
  | a :: as, [], h => by rw [hex_cons] at h; cases h
  | a :: as, b :: bs, h => by
    rw [hex_cons, hex_cons] at h
    simp only [List.cons.injEq] at h
    obtain ⟨hhigh, hlow, hrest⟩ := h
    have ha : a.toNat < 256 := UInt8.toNat_lt_size a
    have hb : b.toNat < 256 := UInt8.toNat_lt_size b
    have hhigh := hexDigit_inj (by omega) (by omega) hhigh
    have hlow := hexDigit_inj (by omega) (by omega) hlow
    have hbyte : a = b := UInt8.toNat_inj.mp (by omega)
    rw [hbyte, hex_inj hrest]

theorem length_hex (bs : Bytes) : (hex bs).length = 2 * bs.length := by
  induction bs with
  | nil => rfl
  | cons b bs ih => rw [hex_cons, List.length_cons, List.length_cons, List.length_cons, ih]; omega

theorem length_sha256 (message : Bytes) : (sha256 message).length = 32 := by
  simp [sha256, State.bytes, bigEndian]

/--
No two of the streams have one and the same hash. This is what is assumed of the hash function, of
the streams that a computation really hashes only.
-/
def CollisionFree (streams : List Bytes) : Prop :=
  ∀ a ∈ streams, ∀ b ∈ streams, sha256 a = sha256 b → a = b

instance (streams : List Bytes) : Decidable (CollisionFree streams) :=
  inferInstanceAs (Decidable (∀ a ∈ streams, ∀ b ∈ streams, sha256 a = sha256 b → a = b))

theorem CollisionFree.mono {streams streams' : List Bytes} (h : CollisionFree streams)
    (hsub : streams' ⊆ streams) : CollisionFree streams' :=
  fun a ha b hb => h a (hsub ha) b (hsub hb)

end BuildInputs.Digest

namespace BuildInputs

open Digest

/-- **The text of a hash stands for one hash only.** -/
theorem ContentHash.ofBytes_inj {a b : Bytes} :
    ContentHash.ofBytes a = ContentHash.ofBytes b ↔ sha256 a = sha256 b := by
  constructor
  · intro h
    exact hex_inj (String.ofList_inj.mp (ContentHash.mk.inj h))
  · intro h
    rw [ContentHash.ofBytes, ContentHash.ofBytes, h]

/-- The text of a hash is short: 64 digits. -/
theorem ContentHash.framable_ofBytes (content : Bytes) :
    Framable (utf8 (ContentHash.ofBytes content).text) := by
  have hdigits : (hex (sha256 content)).length = 64 := by rw [length_hex, length_sha256]
  have hbound : ∀ l : List Char, (l.flatMap String.utf8EncodeChar).length ≤ 4 * l.length := by
    intro l
    induction l with
    | nil => simp
    | cons c l ih =>
      have := c.utf8Size_le_four
      rw [List.flatMap_cons, List.length_append, String.length_utf8EncodeChar, List.length_cons]
      omega
  have := hbound (hex (sha256 content))
  show (utf8 (String.ofList (hex (sha256 content)))).length < 2 ^ 64
  rw [utf8_ofList]
  omega

/-- Among streams without a collision equal hashes come from equal streams. -/
theorem Digest.CollisionFree.stream_eq {known : List Bytes} (hc : CollisionFree known)
    {domain : String} {ps qs : List Piece} (hp : stream domain ps ∈ known)
    (hq : stream domain qs ∈ known) (h : combine domain ps = combine domain qs) :
    stream domain ps = stream domain qs :=
  hc _ hp _ hq (ContentHash.ofBytes_inj.mp h)

end BuildInputs

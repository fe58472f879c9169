import BuildInputs.Digest.Content

/-!
# Hashing several fields at once

Before fields are hashed together they are written one after the other into one stream of bytes. A
field is preceded by its length, so `ab, c` and `a, bc` give different streams; a tag is one byte
without a length. Every stream starts with its domain, so that hashes of different kinds of things
differ.
-/

namespace BuildInputs.Digest

/-- What a stream is made of. -/
inductive Piece
  | tag (t : UInt8)
  | field (content : Bytes)
deriving DecidableEq

/-- A number of bytes, least significant first. -/
def littleEndian (count n : Nat) : Bytes :=
  (List.range count).map fun i => (n >>> (8 * i)).toUInt8

/-- A field with its length in front. -/
def framed (content : Bytes) : Bytes := littleEndian 8 content.length ++ content

def Piece.bytes : Piece → Bytes
  | .tag t => [t]
  | .field content => framed content

/-- A text as a field. -/
def Piece.text (s : String) : Piece := .field (utf8 s)

/-- The stream of the pieces in a domain. -/
def stream (domain : String) (pieces : List Piece) : Bytes :=
  framed (utf8 domain) ++ pieces.flatMap Piece.bytes

/-- The hash of the pieces in a domain. -/
def combine (domain : String) (pieces : List Piece) : ContentHash :=
  .ofBytes (stream domain pieces)

end BuildInputs.Digest

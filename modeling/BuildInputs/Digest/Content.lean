import BuildInputs.Digest.Sha256

/-!
# Content hashes

A content hash is the lower-case hexadecimal text of a SHA-256 hash. Hashes that come from elsewhere
are taken as they are written.
-/

namespace BuildInputs

open Digest (Bytes)

/-- The text of a hash. -/
structure ContentHash where
  text : String
deriving DecidableEq

namespace Digest

def hexDigit (n : Nat) : Char := if n < 10 then Char.ofNat (48 + n) else Char.ofNat (87 + n)

/-- Two lower-case hexadecimal digits for every byte. -/
def hex (bytes : Bytes) : List Char :=
  bytes.flatMap fun b => [hexDigit (b.toNat / 16), hexDigit (b.toNat % 16)]

/-- The bytes of a text in UTF-8. -/
def utf8 (s : String) : Bytes := s.toUTF8.data.toList

end Digest

namespace ContentHash

/-- The hash of some content. -/
def ofBytes (content : Bytes) : ContentHash := ⟨String.ofList (Digest.hex (Digest.sha256 content))⟩

/-- How many bytes of a hash are shown to people. -/
def shortLength : Nat := 12

/-- The longest start of the list that takes no more than `room` bytes. -/
def takeBytes (room : Nat) : List Char → List Char
  | [] => []
  | c :: cs => if c.utf8Size ≤ room then c :: takeBytes (room - c.utf8Size) cs else []

/-- The start of the hash, for display. -/
def short (h : ContentHash) : String := String.ofList (takeBytes shortLength h.text.toList)

end ContentHash

end BuildInputs

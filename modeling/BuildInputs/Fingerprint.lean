import BuildInputs.Digest.Framing
import BuildInputs.Sorted

/-!
# Fingerprints

A fingerprint says of a collection of files what matters to a normalizer: a list of entries, each an
identity with a content hash, grouped by root. Its hash summarises them. Two fingerprints are
compared by identity: `changesSince` tells which identities were added, removed or modified.
-/

namespace BuildInputs

/-- Which part of a file's location is significant. -/
inductive Normalizer
  | absolutePath | relativePath | nameOnly | ignoredPath
  /-- What a program sees that runs with a class path. -/
  | classPath
  /-- What a compiler sees of a class path. -/
  | compileClassPath
deriving DecidableEq

namespace Normalizer

def all : List Normalizer :=
  [absolutePath, relativePath, nameOnly, ignoredPath, classPath, compileClassPath]

def text : Normalizer → String
  | absolutePath => "absolute-path"
  | relativePath => "relative-path"
  | nameOnly => "name-only"
  | ignoredPath => "ignored-path"
  | classPath => "classpath"
  | compileClassPath => "compile-classpath"

/-- The normalizer with the given name. -/
def ofText? (s : String) : Option Normalizer := all.find? fun n => n.text = s

/-- The place in the list of all normalizers. -/
def rank (n : Normalizer) : Nat := all.idxOf n

instance : Ord Normalizer := ⟨compareOn rank⟩

instance : Std.TransOrd Normalizer := inferInstanceAs (Std.TransCmp (compareOn rank))

end Normalizer

/-- One normalized file. -/
structure FingerprintEntry where
  /-- The position of the root that it was found under. -/
  root : Nat
  identity : String
  content : ContentHash
deriving DecidableEq

/--
The normalized identity of a collection of files. The strategy key and the signature of the source
only decide whether a fingerprint can stand for another one.
-/
structure Fingerprint where
  normalizer : Normalizer
  entries : List FingerprintEntry
  strategy : ContentHash
  source : ContentHash
deriving DecidableEq

/-- How an identity changed. -/
inductive ChangeKind
  | added | removed | modified
deriving DecidableEq

/-- A difference between two fingerprints. -/
structure Change where
  kind : ChangeKind
  identity : String
deriving DecidableEq

def ChangeKind.text : ChangeKind → String
  | .added => "added"
  | .removed => "removed"
  | .modified => "modified"

def Change.text (c : Change) : String := s!"{c.kind.text} {c.identity}"

/-- An identity with its hashes. -/
structure HashGroup where
  identity : String
  hashes : List ContentHash
deriving DecidableEq

/-- Put the hash of an entry at the end of those of its identity. -/
def HashGroup.put (s : SortedBy identity) (e : FingerprintEntry) : SortedBy identity :=
  let earlier := (s.find? e.identity).elim [] hashes
  s.insert ⟨e.identity, earlier ++ [e.content]⟩

namespace Fingerprint

/-- The pieces of an entry, with a tag (`R`) in front when it is the first one of its root. -/
def entryPieces (previousRoot : Option Nat) (e : FingerprintEntry) : List Digest.Piece :=
  (if previousRoot = some e.root then [] else [.tag 82]) ++
    [.tag 69, .text e.identity, .text e.content.text]

/-- The pieces of the entries after one of the given root. -/
def piecesFrom (previousRoot : Option Nat) : List FingerprintEntry → List Digest.Piece
  | [] => []
  | e :: es => entryPieces previousRoot e ++ piecesFrom (some e.root) es

/-- The hash of entries under a normalizer. -/
def summary (n : Normalizer) (entries : List FingerprintEntry) : ContentHash :=
  Digest.combine "stratum:fingerprint:v1" (.text n.text :: piecesFrom none entries)

/-- The hash that combines every entry. -/
def hash (f : Fingerprint) : ContentHash := summary f.normalizer f.entries

/-- Whether two fingerprints have the same normalizer, entries and hash. -/
def same (f g : Fingerprint) : Bool :=
  f.normalizer = g.normalizer && f.hash = g.hash && f.entries = g.entries

/-- The first entry with the identity: on a class path earlier roots hide later ones. -/
def find? (f : Fingerprint) (identity : String) : Option FingerprintEntry :=
  f.entries.find? fun e => e.identity = identity

/-- The hashes of every identity, in the order of entries. -/
def groups (f : Fingerprint) : SortedBy HashGroup.identity := f.entries.foldl HashGroup.put .empty

/-- How an identity changed that is still there, if it did. -/
def changeOfGroup? (before : SortedBy HashGroup.identity) (now : HashGroup) : Option Change :=
  match before.find? now.identity with
  | none => some ⟨.added, now.identity⟩
  | some old => if old.hashes = now.hashes then none else some ⟨.modified, now.identity⟩

/--
What changed since `previous`, in two passes: what is there now is looked up among what was there
before, then the other way round.
-/
def changesInPasses (current previous : Fingerprint) : List Change :=
  let now := current.groups
  let before := previous.groups
  let gone := before.toList.filter fun g => !now.contains g.identity
  now.toList.filterMap (changeOfGroup? before) ++ gone.map fun g => ⟨.removed, g.identity⟩

/-- What changed since `previous`, in increasing order of identities. -/
def changesSince (current previous : Fingerprint) : List Change :=
  (changesInPasses current previous).mergeSort fun a b => (compare a.identity b.identity).isLE

end Fingerprint

end BuildInputs

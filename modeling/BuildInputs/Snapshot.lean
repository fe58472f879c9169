import BuildInputs.Digest.Framing
import BuildInputs.Path

/-!
# Snapshots of files

A location is a regular file with the hash of its content, a directory with its children, or a place
where nothing is. A snapshot is a list of locations, its roots.

The hash of a directory covers the names, kinds and hashes of its children in order of names, hence
the whole tree below it, but neither paths nor the order in which children are listed. The signature
of a snapshot covers the kinds, path texts and hashes of its roots in their order.
-/

namespace BuildInputs

/-- What is at a location. -/
inductive FileKind
  | regularFile | directory | missing
deriving DecidableEq

namespace FileKind

def text : FileKind → String
  | regularFile => "regular-file"
  | directory => "directory"
  | missing => "missing"

/-- The byte that stands for the kind: `F`, `D` or `M`. -/
def tag : FileKind → UInt8
  | regularFile => 70
  | directory => 68
  | missing => 77

end FileKind

/-- The captured state of one place in the file system. -/
inductive Location
  | file (path : Path) (content : ContentHash)
  | directory (path : Path) (children : List Location)
  | missing (path : Path)

instance : Inhabited Location := ⟨.missing ⟨""⟩⟩

/-- What the hash of a directory covers of one child. -/
structure ChildRecord where
  kind : FileKind
  name : String
  hash : Option ContentHash
deriving DecidableEq

namespace ChildRecord

/-- The fields of a child; a missing one has the empty hash text. -/
def pieces (r : ChildRecord) : List Digest.Piece :=
  [.tag r.kind.tag, .text r.name, .text ((r.hash.map ContentHash.text).getD "")]

/-- By name; children of one name stay in their order. -/
def sort (rs : List ChildRecord) : List ChildRecord :=
  rs.mergeSort fun a b => (compare a.name b.name).isLE

end ChildRecord

/-- The hash of a directory with the given children. -/
def directoryHash (children : List ChildRecord) : ContentHash :=
  Digest.combine "stratum:directory:v1" ((ChildRecord.sort children).flatMap ChildRecord.pieces)

namespace Location

def path : Location → Path
  | file p _ | directory p _ | missing p => p

/-- The last component of the path, or the whole path when there is none. -/
def name (l : Location) : String := l.path.name

def kind : Location → FileKind
  | file .. => .regularFile
  | directory .. => .directory
  | missing _ => .missing

def children : Location → List Location
  | directory _ cs => cs
  | _ => []

mutual

/-- The content hash of a file, the combined hash of a directory. -/
def hash? : Location → Option ContentHash
  | file _ content => some content
  | directory _ cs => some (directoryHash (childRecords cs))
  | missing _ => none

def childRecords : List Location → List ChildRecord
  | [] => []
  | c :: cs => ⟨c.kind, c.name, hash? c⟩ :: childRecords cs

end

mutual

/-- The same kind, path and content, below a directory too. Paths are compared step by step. -/
def same : Location → Location → Bool
  | file p content, file q content' => p.same q && content = content'
  | directory p cs, directory q ds =>
    p.same q && sameList cs ds &&
      directoryHash (childRecords cs) = directoryHash (childRecords ds)
  | missing p, missing q => p.same q
  | _, _ => false

def sameList : List Location → List Location → Bool
  | [], [] => true
  | c :: cs, d :: ds => same c d && sameList cs ds
  | _, _ => false

end

/-- The relative path of a child. -/
def childPath (relative name : String) : String :=
  if relative.isEmpty then name else relative ++ "/" ++ name

mutual

/-- This location and everything below it, parents first, each with its relative path. -/
def visitFrom (relative : String) : Location → List (String × Location)
  | directory p cs => (relative, directory p cs) :: visitChildren relative cs
  | l => [(relative, l)]

def visitChildren (relative : String) : List Location → List (String × Location)
  | [] => []
  | c :: cs => visitFrom (childPath relative c.name) c ++ visitChildren relative cs

end

/-- Everything at and below the location with paths relative to it; its own path is empty. -/
def visit (l : Location) : List (String × Location) := visitFrom "" l

/-- The fields of a root in the signature of a snapshot. -/
def signaturePieces (l : Location) : List Digest.Piece :=
  [.tag l.kind.tag, .text l.path.text, .text ((l.hash?.map ContentHash.text).getD "")]

end Location

/-- An ordered collection of roots. -/
structure Snapshot where
  roots : List Location

namespace Snapshot

def empty : Snapshot := ⟨[]⟩

/-- Whether two snapshots have the same roots in the same order. -/
def same (s t : Snapshot) : Bool := Location.sameList s.roots t.roots

/-- Identifies a snapshot by the kinds, paths and hashes of its roots, in order. -/
def signature (s : Snapshot) : ContentHash :=
  Digest.combine "stratum:snapshot:v1" (s.roots.flatMap Location.signaturePieces)

end Snapshot

end BuildInputs

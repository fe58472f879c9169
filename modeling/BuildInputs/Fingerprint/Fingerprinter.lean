import BuildInputs.Fingerprint
import BuildInputs.Fingerprint.Ignore
import BuildInputs.Snapshot

/-!
# From snapshots to fingerprints

A fingerprinter collects the entries of every root, sorts them by identity and hash, and numbers
them by root. The path-based ones describe every location below a root; those for class paths
describe files only: an archive (a root that is a file) by its content alone, a file below a
directory by its relative path.

A previous fingerprint may be handed in. When it was made with the same strategy from a snapshot
with the same signature, it is the answer.
-/

namespace BuildInputs

/-- What makes fingerprints of snapshots. -/
inductive Fingerprinter
  | absolutePath | relativePath | nameOnly | ignoredPath
  | classPath (ignore : IgnoreList)
  | compileClassPath (ignore : IgnoreList)

namespace Fingerprinter

def normalizer : Fingerprinter → Normalizer
  | absolutePath => .absolutePath
  | relativePath => .relativePath
  | nameOnly => .nameOnly
  | ignoredPath => .ignoredPath
  | classPath _ => .classPath
  | compileClassPath _ => .compileClassPath

/-- The fingerprinter of a normalizer, with an ignore list if it is one for class paths. -/
def ofNormalizer (n : Normalizer) (ignore : IgnoreList) : Fingerprinter :=
  match n with
  | .absolutePath => absolutePath
  | .relativePath => relativePath
  | .nameOnly => nameOnly
  | .ignoredPath => ignoredPath
  | .classPath => classPath ignore
  | .compileClassPath => compileClassPath ignore

/-- The patterns of files that are left out. -/
def patterns : Fingerprinter → List String
  | classPath ignore | compileClassPath ignore => ignore.patterns
  | _ => []

/-- Identifies the normalizer together with its patterns. -/
def strategyKey (f : Fingerprinter) : ContentHash :=
  Digest.combine "stratum:strategy:v1" (.text f.normalizer.text :: f.patterns.map .text)

/-- The content of a regular file, or the stand-in for a directory or for nothing. -/
def standInHash : Location → ContentHash
  | .file _ content => content
  | .directory .. => .ofBytes (Digest.utf8 "stratum:dir")
  | .missing _ => .ofBytes (Digest.utf8 "stratum:missing")

/-- The path of a location below a root. -/
def absoluteText (root : Location) (relative : String) : String :=
  if relative.isEmpty then root.path.text else (root.path.join ⟨relative⟩).text

/-- Identities with content hashes. -/
abbrev Collected := List (String × ContentHash)

/-- Every location under its own path. -/
def absoluteEntry (root : Location) (relative : String) (l : Location) : Collected :=
  [(absoluteText root relative, standInHash l)]

/--
Every location under its relative path. Where that is empty, the name takes its place, unless the
root is a directory: a directory has no path relative to itself.
-/
def relativeEntry (root : Location) (relative : String) (l : Location) : Collected :=
  if !relative.isEmpty then [(relative, standInHash l)]
  else match root.kind with
    | .directory => []
    | _ => [(l.name, standInHash l)]

/-- Every location under its name. -/
def nameEntry (l : Location) : Collected := [(l.name, standInHash l)]

/-- Every file under one and the same identity. -/
def contentEntry : Location → Collected
  | .file _ content => [("", content)]
  | _ => []

/-- A file below a directory, if its relative path is kept. -/
def keptEntry (keeps : String → Bool) (relative : String) : Location → Collected
  | .file _ content => if keeps relative then [(relative, content)] else []
  | _ => []

/-- The entries of a class path root: an archive by content alone, files by relative path. -/
def classPathEntries (ignore : IgnoreList) (keeps : String → Bool) : Location → Collected
  | .file p content => if ignore.ignores p.name then [] else [("", content)]
  | .directory p cs =>
    (Location.directory p cs).visit.flatMap fun (relative, l) => keptEntry keeps relative l
  | .missing _ => []

/-- Compilers read class files only. -/
def isClassFile (relative : String) : Bool := (Path.mk relative).extension? = some "class"

/-- The entries of one root, in visiting order. -/
def rootEntries (f : Fingerprinter) (root : Location) : Collected :=
  match f with
  | absolutePath => root.visit.flatMap fun (relative, l) => absoluteEntry root relative l
  | relativePath => root.visit.flatMap fun (relative, l) => relativeEntry root relative l
  | nameOnly => root.visit.flatMap fun (_, l) => nameEntry l
  | ignoredPath => root.visit.flatMap fun (_, l) => contentEntry l
  | classPath ignore => classPathEntries ignore (fun r => !ignore.ignores r) root
  | compileClassPath ignore =>
    classPathEntries ignore (fun r => !ignore.ignores r && isClassFile r) root

/-- By identity, then by hash. -/
def entryLE (a b : String × ContentHash) : Bool :=
  ((compare a.1 b.1).then (compare a.2.text b.2.text)).isLE

/-- The sorted entries of a root with its number. -/
def numberedEntries (f : Fingerprinter) (root : Location) (number : Nat) : List FingerprintEntry :=
  ((f.rootEntries root).mergeSort entryLE).map fun (identity, content) =>
    ⟨number, identity, content⟩

/-- The entries of all roots, in the order of roots. -/
def entries (f : Fingerprinter) (s : Snapshot) : List FingerprintEntry :=
  s.roots.zipIdx.flatMap fun (root, number) => f.numberedEntries root number

/-- The fingerprint of a snapshot. -/
def fresh (f : Fingerprinter) (s : Snapshot) : Fingerprint :=
  ⟨f.normalizer, f.entries s, f.strategyKey, s.signature⟩

/-- Whether a previous fingerprint comes from the same strategy and an equal snapshot. -/
def canReuse (f : Fingerprinter) (s : Snapshot) (previous : Fingerprint) : Bool :=
  previous.normalizer = f.normalizer && previous.strategy = f.strategyKey &&
    previous.source = s.signature

/-- The fingerprint of a snapshot; a fitting previous one is returned as it is. -/
def fingerprint (f : Fingerprinter) (s : Snapshot) (previous : Option Fingerprint) : Fingerprint :=
  match previous with
  | some p => if f.canReuse s p then p else f.fresh s
  | none => f.fresh s

/-- The fingerprint of nothing. -/
def emptyFingerprint (f : Fingerprinter) : Fingerprint := f.fingerprint .empty none

end Fingerprinter

end BuildInputs

import BuildInputs.Disk
import BuildInputs.Snapshot

/-!
# Taking snapshots

`Disk.snapshot` captures a list of roots. A directory is walked in order of names, each directory
before what is in it; links are followed, and a link to a directory that is being walked is a loop.
A root that does not exist is recorded as missing; anything else that cannot be read, below a root
or at it, is an error, and then there is no snapshot at all.

Somebody may cancel at any time. Whether that has happened is a question like those to the disk. It
is asked before each root, before each entry that a walk gets to and before each file that is read.

A walk lists what it finds with depths. `assemble` makes a tree of such a list: it keeps a stack of
the directories that are still open and closes them when an entry is not deeper than they are.

## Termination

A walk goes down by one level at a time and no deeper than `maxWalkDepth`, which no path of a real
file system exceeds.
-/

namespace BuildInputs

/-- Why a snapshot was given up. -/
inductive SnapshotError
  | unreadable (path : Path) (cause : DiskError)
  | brokenLink (path : Path)
  | linkLoop (path : Path)
  | cancelled
deriving DecidableEq

def SnapshotError.message : SnapshotError → String
  | .unreadable p e => s!"failed to read {p.text}: {e.message}"
  | .brokenLink p => s!"broken symbolic link: {p.text}"
  | .linkLoop p => s!"failed to walk {p.text}: symbolic link loop"
  | .cancelled => "snapshot was cancelled"

/-- Something found on a walk; the depth of the children of the root is 1. -/
structure Walked (α : Type) where
  path : Path
  depth : Nat
  /-- `none` for a directory. -/
  file : Option α

/-- How many levels a walk goes down: a path with more names is too long to be used. -/
def maxWalkDepth : Nat := 4096

/-! ## Trees from lists -/

/-- A directory that is still open, with the children it has so far. -/
structure OpenDirectory where
  path : Path
  children : List Location

/-- The finished directory. -/
def OpenDirectory.close (d : OpenDirectory) : Location := .directory d.path d.children

def OpenDirectory.add (d : OpenDirectory) (l : Location) : OpenDirectory :=
  { d with children := d.children ++ [l] }

/-- The open directories from the innermost outwards; the last one, the root, is always there. -/
structure OpenStack where
  inner : List OpenDirectory
  root : OpenDirectory

namespace OpenStack

/-- Add a finished location to the innermost open directory. -/
def add (s : OpenStack) (l : Location) : OpenStack :=
  match s.inner with
  | [] => { s with root := s.root.add l }
  | d :: ds => { s with inner := d.add l :: ds }

/-- Close inner directories until no more than `count` are open. -/
def closeTo (count : Nat) (s : OpenStack) : OpenStack :=
  match s with
  | ⟨[], root⟩ => ⟨[], root⟩
  | ⟨d :: ds, root⟩ =>
    if ds.length < count then ⟨d :: ds, root⟩ else closeTo count (add ⟨ds, root⟩ d.close)
termination_by s.inner.length
decreasing_by
  cases ds <;> simp [add]

/-- Take the next entry of a walk. Its parent is the open directory at its depth. -/
def take (s : OpenStack) (e : Walked ContentHash) : OpenStack :=
  let s := s.closeTo (e.depth - 1)
  match e.file with
  | some content => s.add (.file e.path content)
  | none => { s with inner := ⟨e.path, []⟩ :: s.inner }

end OpenStack

/-- The directory whose walk found the given entries. -/
def assemble (root : Path) (entries : List (Walked ContentHash)) : Location :=
  let s := entries.foldl OpenStack.take ⟨[], ⟨root, []⟩⟩
  (s.closeTo 0).root.close

/-! ## Walks -/

/-- Why a walk does not get on. -/
inductive WalkError
  /-- A link to a directory that is being walked. -/
  | loop (link : Path)
  /-- A refusal, with the path that was asked about where it is known. -/
  | refused (path : Option Path) (cause : DiskError)
deriving DecidableEq

namespace Disk

variable {m : Type → Type} [Monad m]

/-- An answer of the disk, as a step that may give up. -/
def ask {ε α : Type} (refused : DiskError → ε) (answer : m (Except DiskError α)) : ExceptT ε m α :=
  ExceptT.mk do return (← answer).mapError refused

/-- Give up if somebody has cancelled. -/
def checkCancelled (isCancelled : m Bool) : ExceptT SnapshotError m Unit := do
  if ← (isCancelled : m Bool) then throw .cancelled

/-! ### Getting on -/

/--
A link to a directory must not lead to one that is being walked. These are compared with it one
after the other, the innermost one first.
-/
def checkLoop (disk : Disk m) (link : Path) (identity : String) :
    List Path → ExceptT WalkError m Unit
  | [] => return
  | directory :: above => do
    if (← ask (.refused none) (disk.identity directory)) = identity then throw (.loop link)
    else checkLoop disk link identity above

/-- What is at a path, told what stands there itself: links are followed. -/
def follow (disk : Disk m) (above : List Path) (p : Path) :
    Option PlaceKind → ExceptT WalkError m PlaceKind
  | some kind => return kind
  | none => do
    match ← ask (.refused (some p)) (disk.place p) with
    | .directory =>
      disk.checkLoop p (← ask (.refused none) (disk.identity p)) above
      return .directory
    | kind => return kind

/-- Where the root of a walk leads. -/
def enterRoot (disk : Disk m) (root : Path) : ExceptT WalkError m PlaceKind := do
  disk.follow [] root (← ask (.refused (some root)) (disk.itself root))

/-- The path of an entry of a directory, and what is there. -/
def enter (disk : Disk m) (above : List Path) (directory : Path) :
    Except EntryError DirectoryEntry → ExceptT WalkError m (Path × PlaceKind)
  | .error e => throw (.refused (e.name.map fun name => directory.join ⟨name⟩) e.cause)
  | .ok e => do
    let p := directory.join ⟨e.name⟩
    return (p, ← disk.follow above p e.kind)

/-! ### Giving up -/

/-- What is wrong below a root. What is not found may be a link that leads nowhere. -/
def walkError (disk : Disk m) (root : Path) : WalkError → m SnapshotError
  | .loop link => return .linkLoop link
  | .refused path .notFound => do
    let p := path.getD root
    return if ← disk.present p then .brokenLink p else .unreadable p .notFound
  | .refused path cause => return .unreadable (path.getD root) cause

/-- End a walk with an error, or because somebody has cancelled. -/
def giveUp {α : Type} (disk : Disk m) (isCancelled : m Bool) (root : Path) (e : WalkError) :
    ExceptT SnapshotError m α := do
  checkCancelled isCancelled
  throw (← (disk.walkError root e : m SnapshotError))

/-! ### Everything below a root -/

/-- By name, after what could not be read. -/
def listingLE : Except EntryError DirectoryEntry → Except EntryError DirectoryEntry → Bool
  | .ok a, .ok b => (compare a.name b.name).isLE
  | .ok _, .error _ => false
  | .error _, _ => true

/--
Everything in a directory with the given listing, each directory before what is in it. `above` are
the directories on the way to the root, with this one in front. A directory is listed as soon as
the walk gets to it; whatever the walk gets to, cancelling is looked for before it is taken.
-/
def walkBelow (disk : Disk m) (isCancelled : m Bool) (root : Path) (levels : Nat)
    (above : List Path) (directory : Path) (depth : Nat)
    (listing : Except DiskError DirectoryListing) : ExceptT SnapshotError m (List (Walked Unit)) :=
  match levels, listing with
  | 0, _ => throw (.unreadable directory .nameTooLong)
  | _ + 1, .error cause => disk.giveUp isCancelled root (.refused (some directory) cause)
  | levels + 1, .ok entries => do
    let found ← (entries.mergeSort listingLE).mapM fun e => do
      match ← ((disk.enter above directory e).run : m (Except WalkError (Path × PlaceKind))) with
      | .error e => disk.giveUp isCancelled root e
      | .ok (p, .directory) =>
        let listing ← (disk.list p : m (Except DiskError DirectoryListing))
        checkCancelled isCancelled
        let below ← walkBelow disk isCancelled root levels (p :: above) p (depth + 1) listing
        return ⟨p, depth, none⟩ :: below
      | .ok (p, .file) =>
        checkCancelled isCancelled
        return [⟨p, depth, some ()⟩]
      | .ok (_, .special) =>
        checkCancelled isCancelled
        return []
    return found.flatten

/-- Everything below a root. Nothing is below a root that is no directory. -/
def walk (disk : Disk m) (isCancelled : m Bool) (root : Path) :
    ExceptT SnapshotError m (List (Walked Unit)) := do
  match ← ((disk.enterRoot root).run : m (Except WalkError PlaceKind)) with
  | .error e => disk.giveUp isCancelled root e
  | .ok .directory =>
    let listing ← (disk.list root : m (Except DiskError DirectoryListing))
    disk.walkBelow isCancelled root maxWalkDepth [root] root 1 listing
  | .ok _ => return []

/-! ## Snapshots -/

/-- The hash of a file, unless somebody has cancelled. -/
def hashForSnapshot (disk : Disk m) (isCancelled : m Bool) (p : Path) :
    ExceptT SnapshotError m ContentHash := do
  checkCancelled isCancelled
  ask (.unreadable p) (disk.hashFile p)

/-- Replace a file that was found by the hash of its content. -/
def hashWalked (disk : Disk m) (isCancelled : m Bool) (e : Walked Unit) :
    ExceptT SnapshotError m (Walked ContentHash) := do
  match e.file with
  | some () => return { e with file := some (← disk.hashForSnapshot isCancelled e.path) }
  | none => return { e with file := none }

/-- A directory with everything below it. Files are read after the walk. -/
def snapshotDirectory (disk : Disk m) (isCancelled : m Bool) (root : Path) :
    ExceptT SnapshotError m Location := do
  let found ← disk.walk isCancelled root
  return assemble root (← found.mapM (disk.hashWalked isCancelled))

/-- One root: a file, a directory, or nothing that has content. -/
def snapshotRoot (disk : Disk m) (isCancelled : m Bool) (root : Path) :
    ExceptT SnapshotError m Location := do
  match ← (disk.place root : m (Except DiskError PlaceKind)) with
  | .ok .directory => disk.snapshotDirectory isCancelled root
  | .ok .file => return .file root (← disk.hashForSnapshot isCancelled root)
  | .ok .special => return .missing root
  | .error .notFound =>
    if ← (disk.present root : m Bool) then throw (.brokenLink root) else return .missing root
  | .error e => throw (.unreadable root e)

/-- The roots in their order. -/
def snapshotRoots (disk : Disk m) (isCancelled : m Bool) :
    List Path → ExceptT SnapshotError m (List Location)
  | [] => return []
  | root :: roots => do
    checkCancelled isCancelled
    let l ← disk.snapshotRoot isCancelled root
    return l :: (← snapshotRoots disk isCancelled roots)

/-- A snapshot of an ordered list of roots, unless somebody cancels before it is complete. -/
def snapshot (disk : Disk m) (isCancelled : m Bool) (roots : List Path) :
    m (Except SnapshotError Snapshot) := do
  return (← (disk.snapshotRoots isCancelled roots).run).map Snapshot.mk

end Disk

end BuildInputs

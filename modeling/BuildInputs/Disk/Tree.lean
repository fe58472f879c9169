import BuildInputs.Disk

/-!
# A file system in memory

A tree of directories with files, links and devices, and a working directory in it. Looking up a
path goes from name to name and replaces a link by its target; at most `maxLinks` links are
followed.

## Termination

Following a link uses up one of the links that may still be followed; every other step of a look-up
uses up one part of the path.
-/

namespace BuildInputs

open Digest (Bytes)

/-- What stands under a name. -/
inductive Node
  | file (content : Bytes)
  | directory (entries : List (String × Node))
  | link (target : String)
  | device

/-- A file system with its working directory, given by the names on the way from the root. -/
structure FileTree where
  root : Node
  cwd : List String

/-- Where a path leads. -/
inductive Lookup
  /-- To the node at these names from the root. -/
  | found (names : List String) (node : Node)
  /-- Nowhere, but the name could be made in an existing directory. -/
  | absent (directory : List String) (name : String)
  | failed (e : DiskError)

/-- What a look-up is for, which decides about the end of the path. -/
inductive Purpose
  /-- What stands there, be it a link. -/
  | itself
  /-- What a link at the end leads to. -/
  | target
  /-- The file to write, which a link at the end may lead to. -/
  | writing
deriving DecidableEq

/-- How many links a look-up follows. -/
def maxLinks : Nat := 40

/-- The longest name, in bytes. -/
def maxNameBytes : Nat := 255

/-- The longest path, in bytes. -/
def maxPathBytes : Nat := 4095

namespace Node

/-- The node at the names below this one. -/
def find? : List String → Node → Option Node
  | [], n => some n
  | k :: ks, .directory es =>
    match es.lookup k with
    | some n => find? ks n
    | none => none
  | _ :: _, _ => none

/-- Put a node under a name, or take the name away. -/
def setEntry (k : String) (n : Option Node) : List (String × Node) → List (String × Node)
  | [] => (n.map fun n => (k, n)).toList
  | (k', n') :: es =>
    if k' = k then (n.map fun n => (k, n)).toList ++ es else (k', n') :: setEntry k n es

/-- Change what stands at the names below this node. The directories on the way must exist. -/
def change (node : Option Node) : List String → Node → Node
  | [k], .directory es => .directory (setEntry k node es)
  | k :: ks, .directory es =>
    match es.lookup k with
    | some n => .directory (setEntry k (some (change node ks n)) es)
    | none => .directory es
  | _, n => n

end Node

/-- The parts of a path between its separators. -/
def pathParts (path : String) : List String :=
  ((Text.splitAll '/' path.toList).filter (!·.isEmpty)).map String.ofList

/--
The parts that a look-up goes through. A separator at the end is a part of its own: it asks for a
directory.
-/
def lookupParts (path : String) : List String :=
  if path.toList.getLast? = some '/' then pathParts path ++ ["/"] else pathParts path

namespace FileTree

/-- Where a look-up of the text starts: at the root or in the directory given. -/
def startOf (path : String) (current : List String) : List String :=
  if (Path.mk path).isAbsolute then [] else current

/-- Go through the parts of a path. -/
def walkParts (t : FileTree) (purpose : Purpose) (links : Nat) (current : List String)
    (parts : List String) : Lookup :=
  match parts with
  | [] =>
    match t.root.find? current with
    | some n => .found current n
    | none => .failed .notFound
  | part :: rest =>
    match t.root.find? current with
    | some (.directory es) =>
      if part = "." || part = "/" then walkParts t purpose links current rest
      else if part = ".." then walkParts t purpose links current.dropLast rest
      else if purpose = .writing ∧ rest = ["/"] then .failed .isDirectory
      else if part.utf8ByteSize > maxNameBytes then .failed .nameTooLong
      else match es.lookup part with
        | none => if rest.isEmpty then .absent current part else .failed .notFound
        | some (.link target) =>
          if rest.isEmpty && purpose = .itself then .found (current ++ [part]) (.link target)
          else match links with
            | 0 => .failed .tooManyLinks
            | links + 1 =>
              walkParts t purpose links (startOf target current) (lookupParts target ++ rest)
        | some n =>
          if rest.isEmpty then .found (current ++ [part]) n
          else walkParts t purpose links (current ++ [part]) rest
    | some _ => .failed .notDirectory
    | none => .failed .notFound
termination_by (links, parts.length)

/-- Where a path leads. -/
def lookup (t : FileTree) (purpose : Purpose) (p : Path) : Lookup :=
  if p.text.toList.contains '\x00' then .failed .zeroByte
  else if p.text.isEmpty then .failed .notFound
  else if p.text.utf8ByteSize > maxPathBytes then .failed .nameTooLong
  else t.walkParts purpose maxLinks (startOf p.text t.cwd) (lookupParts p.text)

/-- The names and the node of an existing path. -/
def existing (t : FileTree) (p : Path) : Except DiskError (List String × Node) :=
  match t.lookup .target p with
  | .found names n => return (names, n)
  | .absent .. => throw .notFound
  | .failed e => throw e

def absoluteText (names : List String) : String := "/" ++ String.intercalate "/" names

/-! ## Questions -/

/-- What a node is: `none` for a link. -/
def kindOf : Node → Option PlaceKind
  | .file _ => some .file
  | .directory _ => some .directory
  | .link _ => none
  | .device => some .special

/-- What stands at a path itself. -/
def itself (t : FileTree) (p : Path) : Except DiskError (Option PlaceKind) :=
  match t.lookup .itself p with
  | .found _ n => return kindOf n
  | .absent .. => throw .notFound
  | .failed e => throw e

def list (t : FileTree) (p : Path) : Except DiskError DirectoryListing := do
  match ← t.existing p with
  | (_, .directory es) => return es.map fun (name, n) => .ok ⟨name, kindOf n⟩
  | _ => throw .notDirectory

def read (t : FileTree) (p : Path) : Except DiskError Bytes := do
  match ← t.existing p with
  | (_, .file content) => return content
  | (_, .directory _) => throw .isDirectory
  | _ => return []

/-- The questions of a disk, answered by the tree. -/
def disk (t : FileTree) : Disk Id where
  place p := (t.existing p).map fun (_, n) => (kindOf n).getD .special
  itself := t.itself
  identity p := (t.existing p).map fun (names, _) => absoluteText names
  list := t.list
  read := t.read
  resolve p := (t.existing p).map fun (names, _) => ⟨absoluteText names⟩
  workingDirectory := ⟨absoluteText t.cwd⟩

/-! ## Changes -/

/-- A change of a file system. What was done before a failure stays. -/
abbrev Change := ExceptT DiskError (StateM FileTree)

/-- Put a node at the names, or take it away. -/
def setNode (names : List String) (n : Option Node) : Change Unit :=
  modify fun t => { t with root := t.root.change n names }

/-- The result of a look-up in the file system as it is now. -/
def find (purpose : Purpose) (p : Path) : Change Lookup := do
  return (← get).lookup purpose p

/--
Make the directories of a path that are not there. What is there must be a directory, or a link to
one.
-/
def makeParts (current : List String) : List String → Change Unit
  | [] => return ()
  | part :: rest => do
    let t ← get
    match t.walkParts .target maxLinks current [part] with
    | .found names (.directory _) => makeParts names rest
    | .found .. => throw (if rest.isEmpty then .alreadyExists else .notDirectory)
    | .absent directory name =>
      if directory = current && name = part then
        setNode (current ++ [part]) (some (.directory []))
        makeParts (current ++ [part]) rest
      else throw .alreadyExists
    | .failed e =>
      match t.walkParts .itself maxLinks current [part] with
      | .found .. => throw (if rest.isEmpty || e = .notFound then .alreadyExists else e)
      | _ => throw e

/-- Make the directories with the names that a path gives. -/
def makeNamed (p : Path) (names : List String) : Change Unit := do
  if names.any fun name => name.toList.contains '\x00' then throw .zeroByte
  makeParts (startOf p.text (← get).cwd) names

/-- Make the directories above a path. -/
def makeParents (p : Path) : Change Unit :=
  makeNamed p ((pathParts p.text).filter (· ≠ ".")).dropLast

/-- Make a directory and those above it. A dot at the end asks for one that is there already. -/
def makeDirectories (p : Path) : Change Unit := do
  let parts := pathParts p.text
  if parts.getLast? = some "." then
    match (← get).existing p with
    | .ok _ => return ()
    | .error .notFound =>
      makeParents p
      match (← get).existing p with
      | .ok _ => return ()
      | .error e => throw e
    | .error e => throw e
  else makeNamed p parts

/-- Write a file, making the directories above it. -/
def write (p : Path) (content : Bytes) : Change Unit := do
  makeParents p
  match ← find .writing p with
  | .found names (.file _) => setNode names (some (.file content))
  | .found _ .device => return ()
  | .found .. => throw .isDirectory
  | .absent directory name => setNode (directory ++ [name]) (some (.file content))
  | .failed e => throw e

/-- The path without separators at its end. -/
def withoutSlashes (p : Path) : Path :=
  ⟨String.ofList (p.text.toList.reverse.dropWhile (· = '/')).reverse⟩

/-- Make a link, and the directories above it. The target need not lead anywhere. -/
def makeLink (p : Path) (target : String) : Change Unit := do
  makeParents p
  if (target ++ p.text).toList.contains '\x00' then throw .zeroByte
  if target.isEmpty then throw .notFound
  if target.utf8ByteSize > maxPathBytes then throw .nameTooLong
  match ← find .itself (withoutSlashes p) with
  | .found .. => throw .alreadyExists
  | .absent directory name =>
    if withoutSlashes p = p then setNode (directory ++ [name]) (some (.link target))
    else throw .notFound
  | .failed e => throw e

/--
Take away the emptied directory that a path names. The path is looked up once more; if it led
through what is gone now, nothing is left to do. The last part must be the name of a directory
itself.
-/
def removeEmptied (p : Path) : Change Unit := do
  let t ← get
  let parts := pathParts p.text
  match parts.getLast? with
  | none => throw .busy
  | some last =>
    match t.walkParts .target maxLinks (startOf p.text t.cwd) parts.dropLast with
    | .found names (.directory es) =>
      if last = "." then throw .invalidArgument
      else if last = ".." then throw .directoryNotEmpty
      else match es.lookup last with
        | some (.link _) => throw .notDirectory
        | _ => setNode (names ++ [last]) none
    | _ => return ()

/-- Remove a file, a link itself, or a directory with all that is in it, the content first. -/
def remove (p : Path) : Change Unit := do
  match ← find .itself p with
  | .found names (.directory _) =>
    setNode names (some (.directory []))
    removeEmptied p
  | .found names _ => setNode names none
  | .absent .. => throw .notFound
  | .failed e => throw e

/-- Directories within each other, with nothing else in them. -/
def nested : List String → Node
  | [] => .directory []
  | k :: ks => .directory [(k, nested ks)]

/-- Nothing but the null device and an empty working directory. -/
def fresh (cwd : List String) : FileTree :=
  { root := (nested cwd).change (some (.directory [("null", .device)])) ["dev"], cwd }

end FileTree

end BuildInputs

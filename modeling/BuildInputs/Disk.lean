import BuildInputs.Digest.Content
import BuildInputs.Path

/-!
# File systems

What this library asks of a file system, as a structure of questions. The answers are computed in
any monad, so the questions can be put to the real file system as well as to a tree in memory.
-/

namespace BuildInputs

open Digest (Bytes)

/-- Why a file system refuses. -/
inductive DiskError
  | notFound
  | alreadyExists
  /-- The root of the file system, which cannot be taken away. -/
  | busy
  | notDirectory
  | isDirectory
  | invalidArgument
  | nameTooLong
  | directoryNotEmpty
  | tooManyLinks
  /-- A path with a zero byte. -/
  | zeroByte
  /-- A file that should hold text but is not UTF-8. -/
  | notText
  /-- Any other reason, in the words of the system. -/
  | other (text : String)
deriving DecidableEq

def DiskError.message : DiskError → String
  | .notFound => "No such file or directory (os error 2)"
  | .busy => "Device or resource busy (os error 16)"
  | .alreadyExists => "File exists (os error 17)"
  | .notDirectory => "Not a directory (os error 20)"
  | .isDirectory => "Is a directory (os error 21)"
  | .invalidArgument => "Invalid argument (os error 22)"
  | .nameTooLong => "File name too long (os error 36)"
  | .directoryNotEmpty => "Directory not empty (os error 39)"
  | .tooManyLinks => "Too many levels of symbolic links (os error 40)"
  | .zeroByte => "file name contained an unexpected NUL byte"
  | .notText => "stream did not contain valid UTF-8"
  | .other text => text

/-- What a path leads to once links are followed. -/
inductive PlaceKind
  | file | directory
  /-- Devices, sockets and the like, which have no content. -/
  | special
deriving DecidableEq

/-- What stands in a directory. -/
structure DirectoryEntry where
  name : String
  /-- `none` for a link. -/
  kind : Option PlaceKind
deriving DecidableEq

/-- What could not be read from a directory, with its name where that is known. -/
structure EntryError where
  name : Option String
  cause : DiskError
deriving DecidableEq

/-- What a directory says is in it. -/
abbrev DirectoryListing := List (Except EntryError DirectoryEntry)

/-- The questions to a file system. -/
structure Disk (m : Type → Type) where
  /-- What the path leads to. -/
  place : Path → m (Except DiskError PlaceKind)
  /-- What stands at the path itself: `none` for a link. -/
  itself : Path → m (Except DiskError (Option PlaceKind))
  /-- Equal for two paths exactly when they lead to the same place. -/
  identity : Path → m (Except DiskError String)
  /-- What is in a directory, in any order. -/
  list : Path → m (Except DiskError DirectoryListing)
  /-- The content of a file. -/
  read : Path → m (Except DiskError Bytes)
  /-- The absolute path without links, dots and repeated separators. -/
  resolve : Path → m (Except DiskError Path)
  /-- Where relative paths start. -/
  workingDirectory : m Path

namespace Disk

variable {m : Type → Type} [Monad m]

/-- Whether there is anything at the path, be it a link that leads nowhere. -/
def present (disk : Disk m) (p : Path) : m Bool := do
  return (← disk.itself p).isOk

/-- The hash of a file's content. -/
def hashFile (disk : Disk m) (p : Path) : m (Except DiskError ContentHash) := do
  return (← disk.read p).map ContentHash.ofBytes

/-- The content of a file as text. -/
def readText (disk : Disk m) (p : Path) : m (Except DiskError String) := do
  match ← disk.read p with
  | .ok bytes =>
    match String.fromUTF8? bytes.toByteArray with
    | some text => return .ok text
    | none => return .error .notText
  | .error e => return .error e

end Disk

end BuildInputs

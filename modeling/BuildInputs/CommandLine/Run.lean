import BuildInputs.ClassPath.Hash
import BuildInputs.CommandLine.Outcome

/-!
# Running commands

A command asks a disk and ends with an outcome. Paths are made absolute first: those that exist
without links, the others as they are written. What does not exist is warned about, and what becomes
of it is up to the command.
-/

namespace BuildInputs

namespace CommandLine

/-- The fingerprinter that the options ask for. Only those for class paths take ignore patterns. -/
def chooseFingerprinter (n : Normalizer) (ignore : List String) :
    Except CommandError Fingerprinter :=
  if ignore.isEmpty || n = .classPath || n = .compileClassPath then
    (Fingerprinter.configure n [ignore]).mapError .configuring
  else throw (.ignoreUnused n)

end CommandLine

open CommandLine

namespace Disk

variable {m : Type → Type} [Monad m]

/-- The absolute form of a path, and whether nothing is there. -/
def absolute (disk : Disk m) (p : Path) : m (Path × Bool) := do
  match ← disk.resolve p with
  | .ok q => return (q, false)
  | .error _ =>
    let found ← disk.place p
    return (p.absoluteIn (← disk.workingDirectory), !found.isOk)

/-- The absolute forms of paths, and those of the given paths where nothing is. -/
def absoluteAll (disk : Disk m) : List Path → m (List Path × List Path)
  | [] => return ([], [])
  | p :: ps => do
    let (q, isMissing) ← disk.absolute p
    let (qs, missing) ← absoluteAll disk ps
    return (q :: qs, if isMissing then p :: missing else missing)

/-- Hash the class path of the paths and the list. -/
def runHash (disk : Disk m) (paths : List Path) (list : Option String) (format : OutputFormat) :
    m Outcome := do
  let extra := ((list.map ClassPath.parse).getD .empty).entries
  let (entries, missing) ← disk.absoluteAll (paths ++ extra)
  if entries.isEmpty then return { result := .error .noEntries }
  let hash ← disk.runtimeHash ⟨entries⟩
  return { missing, result := (hash.map (hashText format entries)).mapError .hashing }

/-- Fingerprint what is at the paths. -/
def runFingerprint (disk : Disk m) (paths : List Path) (normalizer : Normalizer)
    (ignore : List String) (format : OutputFormat) : m Outcome := do
  match chooseFingerprinter normalizer ignore with
  | .error e => return { result := .error e }
  | .ok f =>
    let (roots, missing) ← disk.absoluteAll paths
    let snapshot ← disk.snapshot (pure false) roots
    let text := snapshot.map fun s => fingerprintText format roots (f.fingerprint s none)
    return { missing, result := text.mapError .capturing }

/-- Select a variant as a match request document says. -/
def runSelect (disk : Disk m) (document : Path) (format : OutputFormat) : m Outcome := do
  let config ← disk.loadRequest document
  return { result := do
    let request ← (config >>= (·.resolve)).mapError (.loading document)
    let selected ← request.select.mapError .selecting
    return selectionText format request.requested selected }

/-- Do what a command asks for. -/
def run (disk : Disk m) : Command → m Outcome
  | .hash paths list format => disk.runHash paths list format
  | .fingerprint paths normalizer ignore format =>
    disk.runFingerprint paths normalizer ignore format
  | .select document format => disk.runSelect document format

end Disk

end BuildInputs

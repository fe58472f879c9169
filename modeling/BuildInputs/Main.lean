import BuildInputs.CommandLine.Run

/-!
# The program

Puts the questions of a command to the file system of the machine, and prints the outcome.
-/

namespace BuildInputs

/-- What an error number of the system means. Some come with the sign changed. -/
def refusal (code : UInt32) (details : String) : DiskError :=
  let code := min code (-code)
  match code with
  | 2 => .notFound
  | 17 => .alreadyExists
  | 20 => .notDirectory
  | 21 => .isDirectory
  | 36 => .nameTooLong
  | 39 => .directoryNotEmpty
  | 40 => .tooManyLinks
  | _ => .other s!"{details} (os error {code})"

/-- The reason for an error of the system. -/
def refusalOf : IO.Error → DiskError
  | .noFileOrDirectory _ code details | .interrupted _ code details
  | .alreadyExists _ code details | .invalidArgument _ code details
  | .permissionDenied _ code details | .resourceExhausted _ code details
  | .inappropriateType _ code details | .noSuchThing _ code details
  | .otherError code details | .resourceBusy code details | .resourceVanished code details
  | .unsupportedOperation code details | .hardwareFault code details
  | .unsatisfiedConstraints code details | .illegalOperation code details
  | .protocolError code details | .timeExpired code details => refusal code details
  | e => .other (toString e)

/-- The answer of the system, or why it refuses. -/
def answer {α : Type} (act : IO α) : IO (Except DiskError α) := do
  match ← act.toBaseIO with
  | .ok a => return .ok a
  | .error e => return .error (refusalOf e)

def kindOf : IO.FS.FileType → PlaceKind
  | .dir => .directory
  | .file => .file
  | _ => .special

/-- What stands at a path itself: `none` for a link. -/
def ownKindOf : IO.FS.FileType → Option PlaceKind
  | .symlink => none
  | t => kindOf t

/-- The file system of the machine. -/
def systemDisk : Disk IO where
  place p := answer do
    let here ← IO.currentDir
    return kindOf (← (here / p.text).metadata).type
  itself p := answer do
    let here ← IO.currentDir
    return ownKindOf (← (here / p.text).symlinkMetadata).type
  identity p := answer do return (← IO.FS.realPath p.text).toString
  list p := answer do
    let here ← IO.currentDir
    let entries ← (here / p.text).readDir
    entries.toList.mapM fun e => do
      match ← answer e.path.symlinkMetadata with
      | .ok status => return .ok ⟨e.fileName, ownKindOf status.type⟩
      | .error cause => return .error ⟨e.fileName, cause⟩
  read p := answer do return (← IO.FS.readBinFile p.text).toList
  resolve p := answer do return ⟨(← IO.FS.realPath p.text).toString⟩
  workingDirectory := do return ⟨(← IO.currentDir).toString⟩

end BuildInputs

def main (args : List String) : IO UInt32 := do
  match BuildInputs.CommandLine.Command.parse args with
  | .error e =>
    IO.eprintln s!"error: {e.message}"
    return 2
  | .ok command =>
    let outcome ← BuildInputs.systemDisk.run command
    IO.print outcome.output
    IO.eprint outcome.errorOutput
    return outcome.exitCode.toUInt32

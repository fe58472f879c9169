import BuildInputs.Matching

/-!
# Platforms as attributes

Native variants differ by operating system and architecture. A platform is described by the two
string attributes `os` and `arch`, and the platform schema prefers the requested value of each.
-/

namespace BuildInputs

inductive Arch
  | x86_64 | aarch64
deriving DecidableEq

inductive OperatingSystem
  | linux | macos | windows
deriving DecidableEq

def Arch.text : Arch → String
  | .x86_64 => "x86_64"
  | .aarch64 => "aarch64"

/-- The name of the system in platform triples. -/
def OperatingSystem.text : OperatingSystem → String
  | .linux => "linux"
  | .macos => "darwin"
  | .windows => "windows"

structure Platform where
  arch : Arch
  os : OperatingSystem
deriving DecidableEq

namespace Platform

def osKey : Attribute := ⟨"os", .string⟩

def archKey : Attribute := ⟨"arch", .string⟩

/-- The architecture and the system, such as `aarch64-darwin`. -/
def triple (p : Platform) : String := s!"{p.arch.text}-{p.os.text}"

def attributes (p : Platform) : AttributeSet :=
  .ofList [⟨osKey.name, .string p.os.text⟩, ⟨archKey.name, .string p.arch.text⟩]

/-- Both attributes, the operating system first in precedence. -/
def schemaDraft : SchemaDraft where
  registrations :=
    [{ key := osKey, preference := .requested }, { key := archKey, preference := .requested }]
  precedence := some [osKey, archKey]

/-- The schema in which platforms are matched. -/
def schema : Schema := schemaDraft.freeze (by decide)

end Platform

end BuildInputs

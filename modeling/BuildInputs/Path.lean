import BuildInputs.Text.Split

/-!
# File paths

A path keeps the text it was built with. Its steps are what the text means: empty parts and dots do
not count, except that a dot may begin a relative path. Two texts with the same steps lead to the
same place.
-/

namespace BuildInputs

/-- A path as it is written, with `/` between its parts. -/
structure Path where
  text : String
deriving DecidableEq

namespace Path

/-- One step of a path. -/
inductive Step
  | root
  /-- The dot at the start of a relative path. -/
  | here
  | up
  | name (s : String)
deriving DecidableEq

def isAbsolute (p : Path) : Bool := p.text.toList.head? = some '/'

/-- The step that a part of a path stands for. Empty parts and dots are none. -/
def stepOf? (part : List Char) : Option Step :=
  if part = [] ∨ part = ['.'] then none
  else if part = ['.', '.'] then some .up
  else some (.name (String.ofList part))

/-- The steps that a path stands for. -/
def steps (p : Path) : List Step :=
  let parts := Text.splitAll '/' p.text.toList
  let start := if p.isAbsolute then [.root] else if parts.head? = some ['.'] then [.here] else []
  start ++ parts.filterMap stepOf?

/-- Whether two paths have the same steps. -/
def same (p q : Path) : Bool := p.steps = q.steps

/-- The last step, if it is a name. -/
def fileName? (p : Path) : Option String :=
  match p.steps.getLast? with
  | some (.name s) => some s
  | _ => none

/-- The last step, or the whole text when that is no name. -/
def name (p : Path) : String := p.fileName?.getD p.text

/--
What follows the last dot of the file name. A dot at the very start of the name does not count.
-/
def extension? (p : Path) : Option String := do
  let name ← p.fileName?
  let reversed := name.toList.reverse
  let (extension, rest) ← Text.cutFirst? '.' reversed
  if rest.isEmpty then none else some (String.ofList extension.reverse)

/-- A path below another; an absolute path stands for itself. -/
def join (p q : Path) : Path :=
  if q.isAbsolute then q
  else if p.text.isEmpty || p.text.toList.getLast? = some '/' then ⟨p.text ++ q.text⟩
  else ⟨p.text ++ "/" ++ q.text⟩

/-- The text of a step below a directory; a dot and the root add nothing. -/
def Step.part? : Step → Option String
  | name s => some s
  | up => some ".."
  | _ => none

/--
Where an absolute path starts: at the root. Two slashes that begin a path may mean another root, so
they are kept.
-/
def rootOf (p : Path) : Path :=
  match p.text.toList with
  | '/' :: '/' :: '/' :: _ => ⟨"/"⟩
  | '/' :: '/' :: _ => ⟨"//"⟩
  | _ => ⟨"/"⟩

/--
The absolute path, as it is written: dots and repeated slashes are gone, but steps upwards stay, as
do links. A slash at the end stays too, since it asks for a directory.
-/
def absoluteIn (p workingDirectory : Path) : Path :=
  if p.text.isEmpty then p
  else
    let start := if p.isAbsolute then p.rootOf else workingDirectory
    let q := (p.steps.filterMap Step.part?).foldl (fun q part => q.join ⟨part⟩) start
    if p.text.toList.getLast? = some '/' then q.join ⟨""⟩ else q

end Path

end BuildInputs

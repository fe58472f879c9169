import BuildInputs.Path

/-!
# Class paths

A class path is an ordered list of paths. Its text joins them with colons, which reads back unless a
path itself holds a colon; then the paths are only listed.
-/

namespace BuildInputs

/-- An ordered list of places where classes are looked for. -/
structure ClassPath where
  entries : List Path
deriving DecidableEq

namespace ClassPath

def empty : ClassPath := ⟨[]⟩

/-- The class path of a list with colons. Empty elements are skipped. -/
def parse (list : String) : ClassPath :=
  ⟨((Text.splitAll ':' list.toList).filter (!·.isEmpty)).map fun cs => ⟨String.ofList cs⟩⟩

/-- The entries of both, those of `d` last. -/
def append (c d : ClassPath) : ClassPath := ⟨c.entries ++ d.entries⟩

/-- Whether two class paths have the same paths, step by step, in the same order. -/
def same (c d : ClassPath) : Bool := c.entries.map Path.steps = d.entries.map Path.steps

/-- The entries joined with colons, or listed with commas when one of them holds a colon. -/
def text (c : ClassPath) : String :=
  let texts := c.entries.map Path.text
  let sep := if texts.any fun t => t.toList.contains ':' then ", " else ":"
  String.intercalate sep texts

end ClassPath

end BuildInputs

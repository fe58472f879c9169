import BuildInputs.Glob.Parser

/-!
# Ignored files

An ignore list is a list of glob patterns together with what they denote, so a list that exists has
only well-formed patterns. It ignores a text when some pattern matches it.
-/

namespace BuildInputs

/-- A pattern that is no glob. -/
structure IgnoreError where
  pattern : String
  cause : GlobError
deriving DecidableEq

def IgnoreError.message (e : IgnoreError) : String :=
  s!"invalid ignore pattern '{e.pattern}': {e.cause.message e.pattern}"

namespace Glob

/-- The globs that the patterns denote, or the first pattern that is none. -/
def parseAll : List String → Except IgnoreError (List Glob)
  | [] => return []
  | p :: ps => do
    let g ← (parse p).mapError (⟨p, ·⟩)
    return g :: (← parseAll ps)

end Glob

/-- Patterns with the globs that they denote. -/
structure IgnoreList where
  patterns : List String
  globs : List Glob
  parsed : Glob.parseAll patterns = .ok globs

namespace IgnoreList

def empty : IgnoreList := ⟨[], [], rfl⟩

/-- Add patterns at the end. -/
def extend (l : IgnoreList) (patterns : List String) : Except IgnoreError IgnoreList :=
  match h : Glob.parseAll (l.patterns ++ patterns) with
  | .ok globs => return ⟨l.patterns ++ patterns, globs, h⟩
  | .error e => throw e

/-- Whether some pattern matches the text. -/
def ignores (l : IgnoreList) (text : String) : Bool := l.globs.any (·.isMatch text)

end IgnoreList

end BuildInputs

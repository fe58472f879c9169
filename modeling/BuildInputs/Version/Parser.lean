import BuildInputs.Version
import BuildInputs.Text.Quoted

/-!
# Reading semantic versions

`Version.parse` reads the written form from left to right: three numbers with dots between them,
then `-` and pre-release identifiers, then `+` and build identifiers, then the end. The first part
that does not fit is the error.

## Termination

`segments` consumes at least one dot before it goes on, so the input gets shorter.
-/

namespace BuildInputs

/-- The parts of a version, as errors name them. -/
inductive VersionPart
  | major | minor | patch | prerelease | build
deriving DecidableEq

/-- Why a text is no version. -/
inductive VersionError
  | empty
  | unexpectedEnd (part : VersionPart)
  | unexpectedChar (part : VersionPart) (c : Char)
  | unexpectedAfter (part : VersionPart) (c : Char)
  | leadingZero (part : VersionPart)
  | overflow (part : VersionPart)
  | emptySegment (part : VersionPart)
deriving DecidableEq

def VersionPart.describe : VersionPart → String
  | .major => "major version number"
  | .minor => "minor version number"
  | .patch => "patch version number"
  | .prerelease => "pre-release identifier"
  | .build => "build metadata"

def VersionError.message : VersionError → String
  | .empty => "empty string, expected a semver version"
  | .unexpectedEnd p => s!"unexpected end of input while parsing {p.describe}"
  | .unexpectedChar p c => s!"unexpected character {Text.quoteChar c} while parsing {p.describe}"
  | .unexpectedAfter p c => s!"unexpected character {Text.quoteChar c} after {p.describe}"
  | .leadingZero p => s!"invalid leading zero in {p.describe}"
  | .overflow p => s!"value of {p.describe} exceeds u64::MAX"
  | .emptySegment p => s!"empty identifier segment in {p.describe}"

namespace Version

/-- A number without leading zeros that fits into 64 bits, and the rest of the input. -/
def number (part : VersionPart) (cs : List Char) : Except VersionError (UInt64 × List Char) :=
  match cs.takeWhile Char.isDigit, cs.dropWhile Char.isDigit with
  | [], [] => throw (.unexpectedEnd part)
  | [], c :: _ => throw (.unexpectedChar part c)
  | d :: ds, rest =>
    if d = '0' ∧ ds ≠ [] then throw (.leadingZero part)
    else
      let n := Decimal.value (d :: ds)
      if n < UInt64.size then return (n.toUInt64, rest) else throw (.overflow part)

/-- The dot after a number. -/
def dot (part : VersionPart) : List Char → Except VersionError (List Char)
  | '.' :: rest => return rest
  | c :: _ => throw (.unexpectedAfter part c)
  | [] => throw (.unexpectedEnd part)

theorem length_dropWhile_le {α : Type} (p : α → Bool) (cs : List α) :
    (cs.dropWhile p).length ≤ cs.length :=
  (List.dropWhile_suffix p).length_le

/-- Dot-separated identifiers, each checked by `check`, and the rest of the input. -/
def segments {α : Type} (part : VersionPart) (check : Identifier → Except VersionError α)
    (cs : List Char) : Except VersionError (List α × List Char) :=
  if h : cs.takeWhile isIdentifierChar = [] then throw (.emptySegment part)
  else do
    let first ← check ⟨cs.takeWhile isIdentifierChar, h, List.all_takeWhile⟩
    match hr : cs.dropWhile isIdentifierChar with
    | '.' :: rest =>
      have : rest.length < cs.length := by
        have := length_dropWhile_le isIdentifierChar cs
        simp only [hr, List.length_cons] at this
        omega
      let (others, rest) ← segments part check rest
      return (first :: others, rest)
    | rest => return ([first], rest)
termination_by cs.length

/-- Pre-release identifiers must be canonical. -/
def prereleaseIdentifier (i : Identifier) : Except VersionError PrereleaseIdentifier :=
  if h : i.isCanonical = true then return ⟨i, h⟩ else throw (.leadingZero .prerelease)

/-- The version that a text denotes, or the first thing wrong with the text. -/
def parse (s : String) : Except VersionError Version := do
  if s.isEmpty then throw .empty
  let (major, rest) ← number .major s.toList
  let rest ← dot .major rest
  let (minor, rest) ← number .minor rest
  let rest ← dot .minor rest
  let (patch, rest) ← number .patch rest
  let (prerelease, part, rest) ← match rest with
    | '-' :: rest => do
      let (ids, rest) ← segments .prerelease prereleaseIdentifier rest
      pure (ids, VersionPart.prerelease, rest)
    | rest => pure ([], VersionPart.patch, rest)
  let (build, part, rest) ← match rest with
    | '+' :: rest => do
      let (ids, rest) ← segments .build pure rest
      pure (ids, VersionPart.build, rest)
    | rest => pure ([], part, rest)
  match rest with
  | [] => return { major, minor, patch, prerelease, build }
  | c :: _ => throw (.unexpectedAfter part c)

end Version

end BuildInputs

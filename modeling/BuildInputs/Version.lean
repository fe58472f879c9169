import BuildInputs.Decimal

/-!
# Semantic versions

A version has three numbers, a list of pre-release identifiers and a list of build identifiers. The
invariants of the written form (identifiers are non-empty words of letters, digits and hyphens; a
number among the pre-release identifiers has no leading zero) are part of the types, so every
`Version` has a text that reads back.

The order is total: by the three numbers, then a release stands above its pre-releases, then by the
pre-release identifiers and last by the build identifiers. Among identifiers numbers stand below
words; numbers are compared by value and, when equal, by how many digits write them.
-/

namespace BuildInputs

/-- Letters, digits and the hyphen, all of ASCII. -/
def isIdentifierChar (c : Char) : Bool := c.isAlphanum || c == '-'

/-- One dot-separated piece of a pre-release or of build metadata. -/
structure Identifier where
  chars : List Char
  nonempty : chars ≠ []
  wellFormed : chars.all isIdentifierChar = true
deriving DecidableEq

namespace Identifier

/-- Whether the identifier consists of digits only. -/
def isNumeric (i : Identifier) : Bool := i.chars.all Char.isDigit

/-- A number is canonical when it is written without leading zeros; a word always is. -/
def isCanonical (i : Identifier) : Bool :=
  !(i.isNumeric && i.chars.head? == some '0' && i.chars.length != 1)

def text (i : Identifier) : String := String.ofList i.chars

/--
The list that represents the identifier in the order of identifiers: numbers before words, numbers
by value and then by length, words character by character.
-/
def sortKey (i : Identifier) : List Nat :=
  if i.isNumeric then [0, Decimal.value i.chars, i.chars.length]
  else 1 :: i.chars.map Char.toNat

instance : Ord Identifier := ⟨compareOn sortKey⟩

instance : Std.TransOrd Identifier := inferInstanceAs (Std.TransCmp (compareOn sortKey))

/-- Identifiers joined with dots. -/
def joinText (is : List Identifier) : String := String.intercalate "." (is.map text)

end Identifier

/-- The identifiers allowed in a pre-release. -/
abbrev PrereleaseIdentifier := { i : Identifier // i.isCanonical = true }

/-- A semantic version. -/
structure Version where
  major : UInt64
  minor : UInt64
  patch : UInt64
  prerelease : List PrereleaseIdentifier
  build : List Identifier
deriving DecidableEq

namespace Version

/-- The pre-release identifiers in the order's own terms. -/
def prereleaseKey (v : Version) : List Identifier := v.prerelease.map (·.val)

/-- Whether no pre-release identifiers are attached. -/
def isRelease (v : Version) : Bool := v.prerelease.isEmpty

/-- The total order of versions, which also orders build metadata. -/
instance : Ord Version :=
  ⟨compareLex (compareOn major) <| compareLex (compareOn minor) <| compareLex (compareOn patch) <|
    compareLex (compareOn isRelease) <| compareLex (compareOn prereleaseKey) (compareOn build)⟩

instance : Std.TransOrd Version := inferInstanceAs (Std.TransCmp (compareLex _ _))

/-- The written form, such as `1.2.3-rc.1+linux.5`. -/
def text (v : Version) : String :=
  let numbers := s!"{v.major.toNat}.{v.minor.toNat}.{v.patch.toNat}"
  let pre := if v.prerelease.isEmpty then "" else "-" ++ Identifier.joinText v.prereleaseKey
  let build := if v.build.isEmpty then "" else "+" ++ Identifier.joinText v.build
  numbers ++ pre ++ build

end Version

end BuildInputs

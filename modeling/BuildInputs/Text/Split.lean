/-!
# Splitting text at a separator
-/

namespace BuildInputs.Text

/-- The text before the first separator and the text after it. -/
def cutFirst? (sep : Char) : List Char → Option (List Char × List Char)
  | [] => none
  | c :: cs => if c = sep then some ([], cs) else (cutFirst? sep cs).map fun p => (c :: p.1, p.2)

/-- Put a character before the first part. -/
def consFirst (c : Char) : List (List Char) → List (List Char)
  | [] => [[c]]
  | part :: parts => (c :: part) :: parts

/-- The parts between the separators: one more than there are separators. -/
def splitAll (sep : Char) : List Char → List (List Char)
  | [] => [[]]
  | c :: cs => if c = sep then [] :: splitAll sep cs else consFirst c (splitAll sep cs)

end BuildInputs.Text

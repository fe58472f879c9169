import BuildInputs.Toml.Scalar

/-!
# Quoted strings

The four forms of strings: between double quotes with escapes or single quotes without, on one line
or, with three quotes, on several. Each reader starts after the opening quotes and returns the text
and the rest of the input.

## Termination

The readers follow the input; only an escaped line break skips several characters at once, and what
it skips is part of the input.
-/

namespace BuildInputs.Toml

/-- Control characters may not stand in strings or comments. A tab may. -/
def isForbidden (c : Char) : Bool := (c.toNat < 0x20 && c != '\t') || c.toNat = 0x7F

/-- What a one-letter escape stands for. -/
def escaped? : Char → Option Char
  | 'b' => some '\x08'
  | 't' => some '\t'
  | 'n' => some '\n'
  | 'f' => some '\x0c'
  | 'e' => some '\x1b'
  | 'r' => some '\r'
  | '"' => some '"'
  | '\\' => some '\\'
  | _ => none

/-- The character with the given hexadecimal code point. Surrogates and numbers above them fail. -/
def scalarValue? (hex : List Char) : Option Char :=
  if hex.all isHexDigit then
    let n := Decimal.valueIn 16 hexValue hex
    if n < 0xD800 || (0xDFFF < n && n < 0x110000) then some (Char.ofNat n) else none
  else none

/-- The character of an escape after its backslash, and the rest. -/
def escape? : List Char → Option (Char × List Char)
  | 'x' :: a :: b :: rest => (scalarValue? [a, b]).map (·, rest)
  | 'u' :: a :: b :: c :: d :: rest => (scalarValue? [a, b, c, d]).map (·, rest)
  | 'U' :: a :: b :: c :: d :: e :: f :: g :: h :: rest =>
    (scalarValue? [a, b, c, d, e, f, g, h]).map (·, rest)
  | c :: rest => (escaped? c).map (·, rest)
  | [] => none

theorem length_escape? {cs rest : List Char} {c : Char} (h : escape? cs = some (c, rest)) :
    rest.length < cs.length := by
  rw [escape?.eq_def] at h
  split at h
  next =>
    obtain ⟨_, _, h⟩ := Option.map_eq_some_iff.mp h
    cases h
    simp only [List.length_cons]
    omega
  next =>
    obtain ⟨_, _, h⟩ := Option.map_eq_some_iff.mp h
    cases h
    simp only [List.length_cons]
    omega
  next =>
    obtain ⟨_, _, h⟩ := Option.map_eq_some_iff.mp h
    cases h
    simp only [List.length_cons]
    omega
  next =>
    obtain ⟨_, _, h⟩ := Option.map_eq_some_iff.mp h
    cases h
    simp
  next => simp at h

/-- The rest of a string on one line between double quotes. -/
def basic? (cs : List Char) : Option (List Char × List Char) :=
  match cs with
  | [] => none
  | '"' :: rest => some ([], rest)
  | '\\' :: rest =>
    match h : escape? rest with
    | some (c, rest') =>
      have := length_escape? h
      (basic? rest').map fun (s, r) => (c :: s, r)
    | none => none
  | c :: rest =>
    if isForbidden c then none else (basic? rest).map fun (s, r) => (c :: s, r)
termination_by cs.length

/-- The rest of a string on one line between single quotes. -/
def literal? : List Char → Option (List Char × List Char)
  | [] => none
  | '\'' :: rest => some ([], rest)
  | c :: rest => if isForbidden c then none else (literal? rest).map fun (s, r) => (c :: s, r)

def isBlank (c : Char) : Bool := c = ' ' || c = '\t'

def isNewlineChar (c : Char) : Bool := c = '\n' || c = '\r'

/-- A line break right after the opening quotes does not belong to the string. -/
def dropNewline : List Char → List Char
  | '\r' :: '\n' :: rest => rest
  | '\n' :: rest => rest
  | cs => cs

/-- Up to two quotes may stand before the closing ones; they belong to the string. -/
def closing? (q : Char) (cs : List Char) : Option (List Char × List Char) :=
  let run := (cs.takeWhile (· = q)).take 5
  if run.length < 3 then none else some (run.drop 3, cs.drop run.length)

/-- What follows an escaped line break: blanks and further line breaks are skipped with it. -/
def lineContinuation? (cs : List Char) : Option (List Char) :=
  if (cs.dropWhile isBlank).head?.any isNewlineChar then
    some (cs.dropWhile fun c => isBlank c || isNewlineChar c)
  else none

theorem length_lineContinuation? {cs rest : List Char} (h : lineContinuation? cs = some rest) :
    rest.length ≤ cs.length := by
  rw [lineContinuation?] at h
  split at h
  · rw [← Option.some.inj h]
    exact (List.dropWhile_suffix _).length_le
  · simp at h

/-- The rest of a string over several lines between double quotes. -/
def multilineBasic? (cs : List Char) : Option (List Char × List Char) :=
  match closing? '"' cs with
  | some done => some done
  | none =>
    match cs with
    | [] => none
    | '\\' :: rest =>
      match h : lineContinuation? rest with
      | some rest' =>
        have := length_lineContinuation? h
        multilineBasic? rest'
      | none =>
        match h : escape? rest with
        | some (c, rest') =>
          have := length_escape? h
          (multilineBasic? rest').map fun (s, r) => (c :: s, r)
        | none => none
    | c :: rest =>
      if isForbidden c && !isNewlineChar c then none
      else (multilineBasic? rest).map fun (s, r) => (c :: s, r)
termination_by cs.length

/-- The rest of a string over several lines between single quotes. -/
def multilineLiteral? (cs : List Char) : Option (List Char × List Char) :=
  match closing? '\'' cs with
  | some done => some done
  | none =>
    match cs with
    | [] => none
    | c :: rest =>
      if isForbidden c && !isNewlineChar c then none
      else (multilineLiteral? rest).map fun (s, r) => (c :: s, r)

/-- The string on one line at the start of the input; only these may be keys. -/
def lineString? : List Char → Option (String × List Char)
  | '"' :: rest => (basic? rest).map fun (s, r) => (String.ofList s, r)
  | '\'' :: rest => (literal? rest).map fun (s, r) => (String.ofList s, r)
  | _ => none

/-- The string at the start of the input. -/
def string? : List Char → Option (String × List Char)
  | '"' :: '"' :: '"' :: rest =>
    (multilineBasic? (dropNewline rest)).map fun (s, r) => (String.ofList s, r)
  | '\'' :: '\'' :: '\'' :: rest =>
    (multilineLiteral? (dropNewline rest)).map fun (s, r) => (String.ofList s, r)
  | cs => lineString? cs

end BuildInputs.Toml

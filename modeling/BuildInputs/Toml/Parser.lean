import BuildInputs.Toml.Quoted
import BuildInputs.Toml.Table

/-!
# Reading TOML documents

`Toml.parse?` reads a document line by line: blank lines, table headers, and keys with their values.
A text that is no document has no value; what is wrong with it is not told.

## Termination

Of two steps of a reader at least one consumes input, so twice the length of the input bounds the
number of steps. The readers count down a budget that starts above that; it never runs out first.
Nesting itself is limited to `maxDepth`.
-/

namespace BuildInputs.Toml

/-- How deep arrays and inline tables may be nested, and how many parts a key may have. -/
def maxDepth : Nat := 80

/-- A carriage return stands only before a line feed. -/
def hasProperNewlines : List Char → Bool
  | '\r' :: '\n' :: cs => hasProperNewlines cs
  | '\r' :: _ => false
  | _ :: cs => hasProperNewlines cs
  | [] => true

/-- Skip blanks, line breaks and comments. -/
def skipLines (inComment : Bool) : List Char → Option (List Char)
  | [] => some []
  | c :: cs =>
    if inComment then
      if c = '\n' then skipLines false cs
      else if isForbidden c && c != '\r' then none
      else skipLines true cs
    else if c = '#' then skipLines true cs
    else if isBlank c || isNewlineChar c then skipLines false cs
    else some (c :: cs)

/-- The end of a line: nothing but blanks and a comment up to the line break. -/
def endLine (inComment : Bool) : List Char → Option (List Char)
  | [] => some []
  | c :: cs =>
    if c = '\n' then some cs
    else if c = '\r' then endLine inComment cs
    else if inComment then if isForbidden c then none else endLine true cs
    else if c = '#' then endLine true cs
    else if isBlank c then endLine false cs
    else none

def isBareChar (c : Char) : Bool := c.isAlphanum || c = '_' || c = '-'

/-- One part of a key: a bare word or a string on one line. -/
def keyPart? (cs : List Char) : Option (String × List Char) :=
  match lineString? cs with
  | some r => some r
  | none =>
    let word := cs.takeWhile isBareChar
    if word.isEmpty then none else some (String.ofList word, cs.dropWhile isBareChar)

/-- Parts with dots between them, and blanks around the dots. -/
def keyParts? (budget : Nat) (cs : List Char) : Option (List String × List Char) :=
  match budget with
  | 0 => none
  | budget + 1 => do
    let (part, rest) ← keyPart? (cs.dropWhile isBlank)
    match rest.dropWhile isBlank with
    | '.' :: rest => do
      let (parts, rest) ← keyParts? budget rest
      return (part :: parts, rest)
    | rest => return ([part], rest)

/-- A key, with at most `maxDepth` parts. -/
def key? (budget : Nat) (cs : List Char) : Option (List String × List Char) := do
  let (parts, rest) ← keyParts? budget cs
  if parts.length ≤ maxDepth then return (parts, rest) else none

mutual

/-- The value at the start of the input. -/
def value? (budget depth : Nat) (cs : List Char) : Option (Toml × List Char) :=
  match budget with
  | 0 => none
  | budget + 1 =>
    match cs with
    | '[' :: rest =>
      if depth = 0 then none
      else (items? budget (depth - 1) rest).map fun (vs, r) => (.array vs, r)
    | '\x7b' :: rest =>
      if depth = 0 then none
      else (fields? budget (depth - 1) [] rest).map fun (es, r) => (es.finish, r)
    | c :: _ =>
      if c = '"' || c = '\'' then (string? cs).map fun (s, r) => (.string s, r) else scalar? cs
    | [] => none

/-- The rest of an array. A comma may stand after the last item. -/
def items? (budget depth : Nat) (cs : List Char) : Option (List Toml × List Char) :=
  match budget with
  | 0 => none
  | budget + 1 => do
    match ← skipLines false cs with
    | ']' :: rest => return ([], rest)
    | cs =>
      let (v, rest) ← value? budget depth cs
      match ← skipLines false rest with
      | ',' :: rest => do
        let (vs, rest) ← items? budget depth rest
        return (v :: vs, rest)
      | ']' :: rest => return ([v], rest)
      | _ => none

/--
The rest of an inline table. Its parts may stand on several lines, and a comma may stand after the
last entry.
-/
def fields? (budget depth : Nat) (es : Entries) (cs : List Char) : Option (Entries × List Char) :=
  match budget with
  | 0 => none
  | budget + 1 => do
    match ← skipLines false cs with
    | '\x7d' :: rest => return (es, rest)
    | cs =>
      let (key, rest) ← key? budget cs
      let rest ← after? '=' (← skipLines false rest)
      let (v, rest) ← value? budget depth (← skipLines false rest)
      let es ← es.put v key
      match ← skipLines false rest with
      | ',' :: rest => fields? budget depth es rest
      | '\x7d' :: rest => return (es, rest)
      | _ => none

end

/-- A document as far as it has been read: its tables, and the path of the open one. -/
structure Progress where
  root : Entries
  path : List String

/-- A header: the table or the item of an array of tables that it opens. -/
def header? (budget : Nat) (p : Progress) (cs : List Char) : Option (Progress × List Char) := do
  let (isItem, cs) := match cs with
    | '[' :: cs => (true, cs)
    | cs => (false, cs)
  let (key, rest) ← key? budget cs
  let rest ← after? ']' rest
  let rest ← if isItem then after? ']' rest else some rest
  let last ← key.getLast?
  let root ← p.root.within (if isItem then Entries.openItem last else Entries.openTable last)
    key.dropLast
  return (⟨root, key⟩, rest)

/-- A key with its value, put into the open table. -/
def keyValue? (budget : Nat) (p : Progress) (cs : List Char) : Option (Progress × List Char) := do
  let (key, rest) ← key? budget cs
  let (v, rest) ← value? budget maxDepth ((← after? '=' rest).dropWhile isBlank)
  let root ← p.root.within (Entries.put v key) p.path
  return ({ p with root }, rest)

/-- The lines of a document. -/
def lines? (budget : Nat) (p : Progress) (cs : List Char) : Option Entries :=
  match budget with
  | 0 => none
  | budget + 1 => do
    match ← skipLines false cs with
    | [] => return p.root
    | '[' :: rest => do
      let (p, rest) ← header? budget p rest
      lines? budget p (← endLine false rest)
    | cs => do
      let (p, rest) ← keyValue? budget p cs
      lines? budget p (← endLine false rest)

/-- The table that a document denotes. A byte order mark may stand at the start. -/
def parse? (s : String) : Option Toml :=
  let cs := match s.toList with
    | '\ufeff' :: cs => cs
    | cs => cs
  if hasProperNewlines cs then (lines? (2 * cs.length + 2) ⟨[], []⟩ cs).map Entries.finish else none

end BuildInputs.Toml

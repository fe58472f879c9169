import BuildInputs.Digest.Content

/-!
# Glob patterns

A pattern is a sequence of tokens that must match a whole text, byte by byte: `?` and a character
class match one byte, and both wildcards also match the separator `/`. A component `**` matches any
number of components.

Matching goes through the tokens and asks each of them to leave a rest of the text that the tokens
after it accept.
-/

namespace BuildInputs

open Digest (Bytes utf8)

/-- A character range of a class, both ends included. -/
abbrev CharRange := Char × Char

/-- A token of a pattern. -/
inductive GlobToken
  | literal (c : Char)
  /-- `?`: one byte. -/
  | any
  /-- `*`: any bytes. -/
  | star
  /-- `**/` at the start: any number of components. -/
  | leading
  /-- `/**` at the end: everything below. -/
  | trailing
  /-- `/**/`: any number of components between two others. -/
  | between
  | charClass (negated : Bool) (ranges : List CharRange)
  | alternatives (branches : List (List GlobToken))

namespace GlobToken

/-- Whether a byte is one that a range stands for. The ends count byte by byte. -/
def inRange (b : UInt8) (r : CharRange) : Bool :=
  let first := utf8 r.1.toString
  let last := utf8 r.2.toString
  first.contains b || last.contains b ||
    (r.1 != r.2 && first.getLastD 0 ≤ b && b ≤ last.headD 0)

def inClass (negated : Bool) (ranges : List CharRange) (b : UInt8) : Bool :=
  ranges.any (inRange b) != negated

/-- The rests of a text, from the whole down to nothing. -/
def rests : Bytes → List Bytes
  | [] => [[]]
  | b :: bs => (b :: bs) :: rests bs

/-- The rest after a given start. -/
def dropStart? (start text : Bytes) : Option Bytes :=
  if start.isPrefixOf text then some (text.drop start.length) else none

/-- The code of `/`. -/
def slash : UInt8 := 47

/-- Whether some rest that comes right after a separator is accepted. -/
def anyAfterSlash (next : Bytes → Bool) (text : Bytes) : Bool :=
  (rests text).any fun
    | b :: r => b = slash && next r
    | [] => false

mutual

/-- Whether a token is a group of nothing but empty branches. -/
def isBlank : GlobToken → Bool
  | alternatives branches => allBlank branches
  | _ => false

/-- Whether every branch of a group is empty. -/
def allBlank : List (List GlobToken) → Bool
  | [] => true
  | branch :: branches => blank branch && allBlank branches

/-- Whether a branch is empty. -/
def blank : List GlobToken → Bool
  | [] => true
  | t :: ts => isBlank t && blank ts

end

mutual

/-- Whether a token accepts a start of the text whose rest `next` accepts. -/
def accepts (next : Bytes → Bool) (text : Bytes) : GlobToken → Bool
  | literal c => (dropStart? (utf8 c.toString) text).any next
  | any => match text with
    | _ :: r => next r
    | [] => false
  | star => (rests text).any next
  | leading => next text || anyAfterSlash next text
  | trailing => match text with
    | b :: r => b = slash && (rests r).any next
    | [] => false
  | between => match text with
    | b :: r => b = slash && (next r || anyAfterSlash next r)
    | [] => false
  | charClass negated ranges => match text with
    | b :: r => inClass negated ranges b && next r
    | [] => false
  | alternatives branches => if allBlank branches then next text else anyBranch next text branches

/-- Whether one of the branches accepts. An empty branch stands for nothing and accepts nothing. -/
def anyBranch (next : Bytes → Bool) (text : Bytes) : List (List GlobToken) → Bool
  | [] => false
  | branch :: branches =>
    (!blank branch && acceptsAll next text branch) || anyBranch next text branches

/-- Whether the tokens, one after the other, accept a start of the text. -/
def acceptsAll (next : Bytes → Bool) (text : Bytes) : List GlobToken → Bool
  | [] => next text
  | t :: ts => accepts (fun rest => acceptsAll next rest ts) text t

end

end GlobToken

/-- A pattern with its tokens. -/
structure Glob where
  tokens : List GlobToken

namespace Glob

/-- The characters of tokens that are all literal. -/
def literals? : List GlobToken → Option (List Char)
  | [] => some []
  | .literal c :: ts => (literals? ts).map (c :: ·)
  | _ => none

def isNonemptyLiteral (ts : List GlobToken) : Bool := (literals? ts).any (!·.isEmpty)

/-- `**/` and a name: the pattern asks for a file name. -/
def asksName : List GlobToken → Bool
  | .leading :: ts => (literals? ts).any fun name => !name.isEmpty && !name.contains '/'
  | _ => false

/-- `*` and an extension, perhaps after `**/`: the pattern asks for an extension. -/
def asksExtension (tokens : List GlobToken) : Bool :=
  match (match tokens with
    | .leading :: ts => ts
    | ts => ts) with
  | .star :: .literal '.' :: ts => (literals? ts).any fun e => !e.contains '.' && !e.contains '/'
  | _ => false

/-- A text followed by anything: the pattern asks for a start. -/
def asksStart (tokens : List GlobToken) : Bool :=
  match tokens.getLast? with
  | some .star => isNonemptyLiteral tokens.dropLast
  | some .trailing => (literals? tokens.dropLast).isSome
  | _ => isNonemptyLiteral tokens

/-- Anything followed by a text: the pattern asks for an end. -/
def asksEnd (tokens : List GlobToken) : Bool :=
  match tokens with
  | .leading :: .star :: ts => (literals? ts).any fun e => !e.isEmpty && e != ['/']
  | .leading :: ts => (literals? ts).any fun e => !e.isEmpty
  | .star :: ts => (literals? ts).any fun e => !e.isEmpty && e != ['/']
  | ts => isNonemptyLiteral ts

/-- The literal end of the tokens from its last dot on, if no separator comes after the dot. -/
def endsInExtension (tokens : List GlobToken) : Bool :=
  let tail := tokens.reverse.map fun
    | .literal c => some c
    | _ => none
  match tail.dropWhile fun c => c.any fun c => c != '.' && c != '/' with
  | some '.' :: _ => true
  | _ => false

/-- Whether the last component of a text is `..`, which is no file name and has no extension. -/
def endsAbove (text : String) : Bool :=
  (text.toList.reverse.takeWhile (· != '/')) = ['.', '.']

/-- Whether the pattern is decided by the file name or its extension. -/
def needsFileName (tokens : List GlobToken) : Bool :=
  asksName tokens ||
    (!isNonemptyLiteral tokens &&
      (asksExtension tokens ||
        (!asksStart tokens && !asksEnd tokens && endsInExtension tokens)))

/-- Whether the pattern matches the whole text. The pattern `**` alone matches every text. -/
def isMatch (g : Glob) (text : String) : Bool :=
  match g.tokens with
  | [.leading] => true
  | tokens =>
    !(needsFileName tokens && endsAbove text) &&
      GlobToken.acceptsAll List.isEmpty (utf8 text) tokens

end Glob

end BuildInputs

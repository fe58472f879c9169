import BuildInputs.Glob

/-!
# Reading glob patterns

`Glob.parse` reads a pattern from left to right. Groups may be nested; every open group is a frame
with its finished branches and the branch that is being read. Two stars make a component `**` only
where a component can stand: at the start of a branch before a separator or the end, or after a
separator.

## Termination

Every step consumes at least one character of the pattern.
-/

namespace BuildInputs

/-- Why a text is no pattern. -/
inductive GlobError
  | unclosedClass
  | invalidRange (first last : Char)
  | unopenedGroup
  | unclosedGroup
  | danglingEscape
deriving DecidableEq

def GlobError.reason : GlobError → String
  | .unclosedClass => "unclosed character class; missing ']'"
  | .invalidRange a b => s!"invalid range; '{a}' > '{b}'"
  | .unopenedGroup =>
    "unopened alternate group; missing '\x7b' (maybe escape '\x7d' with '[\x7d]'?)"
  | .unclosedGroup =>
    "unclosed alternate group; missing '\x7d' (maybe escape '\x7b' with '[\x7b]'?)"
  | .danglingEscape => "dangling '\\'"

/-- The reason together with the pattern. -/
def GlobError.message (pattern : String) (e : GlobError) : String :=
  s!"error parsing glob '{pattern}': {e.reason}"

namespace Glob

/-- The branch that is being read, the last token first, and the open groups around it. -/
structure Reading where
  branch : List GlobToken
  /-- For each open group, innermost first: its finished branches and the branch around it. -/
  groups : List (List (List GlobToken) × List GlobToken)

namespace Reading

def start : Reading := ⟨[], []⟩

def push (r : Reading) (t : GlobToken) : Reading := { r with branch := t :: r.branch }

/-- Two wildcards that make no component. -/
def pushStars (r : Reading) : Reading := (r.push .star).push .star

def openGroup (r : Reading) : Reading := ⟨[], ([], r.branch) :: r.groups⟩

/-- A comma ends a branch inside a group and stands for itself outside. -/
def comma (r : Reading) : Reading :=
  match r.groups with
  | [] => r.push (.literal ',')
  | (done, outer) :: groups => ⟨[], (done ++ [r.branch.reverse], outer) :: groups⟩

def closeGroup (r : Reading) : Except GlobError Reading :=
  match r.groups with
  | [] => throw .unopenedGroup
  | (done, outer) :: groups =>
    return ⟨.alternatives (done ++ [r.branch.reverse]) :: outer, groups⟩

def finish (r : Reading) : Except GlobError Glob :=
  if r.groups.isEmpty then return ⟨r.branch.reverse⟩ else throw .unclosedGroup

/--
A component `**` takes the place of the token before it, which is the separator or another component
`**`; `token` is what it becomes unless it continues the latter.
-/
def component (r : Reading) (token : GlobToken) : Reading :=
  match r.branch with
  | .leading :: before => { r with branch := .leading :: before }
  | .trailing :: before => { r with branch := .trailing :: before }
  | _ :: before => { r with branch := token :: before }
  | [] => { r with branch := [token] }

end Reading

/-- A class that is being read. -/
structure ClassReading where
  negated : Bool
  /-- The ranges so far, the last one first. -/
  ranges : List CharRange
  /-- Whether no character has been read yet. -/
  first : Bool
  /-- Whether a hyphen waits for the end of its range. -/
  inRange : Bool

namespace ClassReading

/-- Take a character that is not the closing bracket. -/
def add (k : ClassReading) (c : Char) : Except GlobError ClassReading :=
  if c = '-' && !k.first && !k.inRange then return { k with inRange := true, first := false }
  else match k.inRange, k.ranges with
    | true, (a, _) :: ranges =>
      if c < a then throw (.invalidRange a c)
      else return { k with ranges := (a, c) :: ranges, inRange := false, first := false }
    | _, ranges => return { k with ranges := (c, c) :: ranges, inRange := false, first := false }

/-- A hyphen without an end of its range stands for itself. -/
def token (k : ClassReading) : GlobToken :=
  .charClass k.negated (if k.inRange then ('-', '-') :: k.ranges else k.ranges).reverse

end ClassReading

mutual

/-- Read the rest of a pattern. `prev` is the character before it. -/
def parseFrom (r : Reading) (prev : Option Char) : List Char → Except GlobError Glob
  | [] => r.finish
  | '?' :: cs => parseFrom (r.push .any) (some '?') cs
  | '*' :: '*' :: cs =>
    if r.branch.isEmpty then
      match cs with
      | [] => (r.push .leading).finish
      | '/' :: cs => parseFrom (r.push .leading) (some '/') cs
      | cs => parseFrom r.pushStars (some '*') cs
    else if prev = some '/' || (!r.groups.isEmpty && (prev = some ',' || prev = some '\x7b')) then
      match cs with
      | [] => (r.component .trailing).finish
      | '/' :: cs => parseFrom (r.component .between) (some '/') cs
      | c :: cs =>
        if !r.groups.isEmpty && (c = ',' || c = '\x7d') then
          parseFrom (r.component .trailing) (some '*') (c :: cs)
        else parseFrom r.pushStars (some '*') (c :: cs)
    else parseFrom r.pushStars (some '*') cs
  | '*' :: cs => parseFrom (r.push .star) (some '*') cs
  | '[' :: '!' :: cs => parseClass r ⟨true, [], true, false⟩ cs
  | '[' :: '^' :: cs => parseClass r ⟨true, [], true, false⟩ cs
  | '[' :: cs => parseClass r ⟨false, [], true, false⟩ cs
  | '\x7b' :: cs => parseFrom r.openGroup (some '\x7b') cs
  | '\x7d' :: cs => do parseFrom (← r.closeGroup) (some '\x7d') cs
  | ',' :: cs => parseFrom r.comma (some ',') cs
  | '\\' :: [] => throw .danglingEscape
  | '\\' :: c :: cs => parseFrom (r.push (.literal c)) (some c) cs
  | c :: cs => parseFrom (r.push (.literal c)) (some c) cs

/-- Read the rest of a character class and of the pattern after it. -/
def parseClass (r : Reading) (k : ClassReading) : List Char → Except GlobError Glob
  | [] => throw .unclosedClass
  | ']' :: cs =>
    if k.first then do parseClass r (← k.add ']') cs else parseFrom (r.push k.token) (some ']') cs
  | c :: cs => do parseClass r (← k.add c) cs

end

/-- The pattern that a text denotes. -/
def parse (pattern : String) : Except GlobError Glob :=
  parseFrom .start none pattern.toList

end Glob

end BuildInputs

import BuildInputs.Attribute
import BuildInputs.Sorted

/-!
# Attribute sets

A set maps attribute names to values. The type of an attribute in a set is the type of its value, so
an ill-typed entry cannot be written down; entries are in increasing order of names, so equality of
sets is equality of what they hold.
-/

namespace BuildInputs

/-- One attribute of a set with its value. -/
structure Entry where
  name : String
  value : Value
deriving DecidableEq

namespace Entry

/-- The attribute that the entry gives a value to. -/
def key (e : Entry) : Attribute := ⟨e.name, e.value.type⟩

def text (e : Entry) : String := s!"{e.name}={e.value.text}"

end Entry

/-- A finite map from attribute names to values. -/
abbrev AttributeSet := SortedBy Entry.name

namespace AttributeSet

/-- The entries in increasing order of names. -/
def entries (s : AttributeSet) : List Entry := s.toList

/-- The entry with this name, whatever its type. -/
def entry? (s : AttributeSet) (name : String) : Option Entry := s.find? name

/-- The value of exactly this attribute: the name and the type must agree. -/
def get? (s : AttributeSet) (a : Attribute) : Option Value :=
  ((s.entry? a.name).filter fun e => e.key = a).map Entry.value

def hasName (s : AttributeSet) (name : String) : Bool := (s.entry? name).isSome

def keys (s : AttributeSet) : List Attribute := s.entries.map Entry.key

/-- The written form, such as `{a=1, b=x}`. -/
def text (s : AttributeSet) : String :=
  "\x7b" ++ String.intercalate ", " (s.entries.map Entry.text) ++ "\x7d"

/-- Give `a` the value `v`. A value that is already there is replaced if it has the same type. -/
def put (s : AttributeSet) (a : Attribute) (v : Value) : Except AttributeError AttributeSet := do
  a.check v
  match s.entry? a.name with
  | some e =>
    if e.value.type = a.type then return s.insert ⟨a.name, v⟩
    else throw (.conflictingType a.name e.value.type a.type)
  | none => return s.insert ⟨a.name, v⟩

/-- The set of the given attributes; of equal names the last value stays. -/
def ofPairs (pairs : List (Attribute × Value)) : Except AttributeError AttributeSet :=
  pairs.foldlM (fun s p => s.put p.1 p.2) SortedBy.empty

/-- The union of two sets, in which the values of `t` win. -/
def merge (s t : AttributeSet) : Except AttributeError AttributeSet :=
  t.entries.foldlM (fun s e => s.put e.key e.value) s

end AttributeSet

end BuildInputs

import BuildInputs.Toml.Value

/-!
# Tables under construction

While a document is read, every table remembers how it came about, because that decides whether it
may still grow: a table with a header of its own may not be opened again, dotted keys may extend
only tables that dotted keys made, though they may go through others on the way, and an inline table
or an array is complete where it stands. An entry is never given twice.
-/

namespace BuildInputs.Toml

/-- How a table came about. -/
inductive Origin
  /-- It has a header of its own. -/
  | header
  /-- It stands above a table with a header. -/
  | above
  /-- A dotted key runs through it. -/
  | dotted
deriving DecidableEq

/-- A value of a table under construction. -/
inductive Node
  | leaf (value : Toml)
  | table (origin : Origin) (entries : List (String × Node))
  /-- The tables of an array, each with a header; the last one is open. -/
  | tables (closed : List (List (String × Node))) (last : List (String × Node))

abbrev Entries := List (String × Node)

namespace Entries

/-- Replace the entry of a key, or add it. -/
def set (k : String) (n : Node) : Entries → Entries
  | [] => [(k, n)]
  | (k', n') :: es => if k' = k then (k, n) :: es else (k', n') :: set k n es

/-- Go down the path of a header, making tables that are not there, and change what it leads to. -/
def within (change : Entries → Option Entries) : List String → Entries → Option Entries
  | [], es => change es
  | k :: ks, es =>
    match es.lookup k with
    | none => (within change ks []).map fun sub => set k (.table .above sub) es
    | some (.table o sub) => (within change ks sub).map fun sub => set k (.table o sub) es
    | some (.tables closed last) =>
      (within change ks last).map fun last => set k (.tables closed last) es
    | some (.leaf _) => none

/-- Open the table of a header. -/
def openTable (k : String) (es : Entries) : Option Entries :=
  match es.lookup k with
  | none => some (set k (.table .header []) es)
  | some (.table .above sub) => some (set k (.table .header sub) es)
  | some _ => none

/-- Open the next table of an array of tables. -/
def openItem (k : String) (es : Entries) : Option Entries :=
  match es.lookup k with
  | none => some (set k (.tables [] []) es)
  | some (.tables closed last) => some (set k (.tables (closed ++ [last]) []) es)
  | some _ => none

/-- Whether dotted keys may add to a table; `final` says that the last key is put into it. -/
def Origin.extensible (final : Bool) : Origin → Bool
  | .header => false
  | .above => !final
  | .dotted => true

/-- Give a value to a dotted key. -/
def put (v : Toml) : List String → Entries → Option Entries
  | [], _ => none
  | [k], es => if (es.lookup k).isSome then none else some (es ++ [(k, .leaf v)])
  | k :: ks, es =>
    match es.lookup k with
    | none => (put v ks []).map fun sub => es ++ [(k, .table .dotted sub)]
    | some (.table o sub) =>
      if Origin.extensible (ks.length = 1) o then
        (put v ks sub).map fun sub => set k (.table o sub) es
      else none
    | some (.tables closed last) =>
      if ks.length = 1 then none
      else (put v ks last).map fun last => set k (.tables closed last) es
    | some (.leaf _) => none

end Entries

/-- Entries in increasing order of keys. -/
def sortEntries (es : List (String × Toml)) : List (String × Toml) :=
  es.mergeSort fun a b => (compare a.1 b.1).isLE

mutual

/-- The finished value. -/
def Node.finish : Node → Toml
  | .leaf v => v
  | .table _ es => .table (sortEntries (finishEntries es))
  | .tables closed last =>
    .array (finishTables closed ++ [.table (sortEntries (finishEntries last))])

def finishEntries : List (String × Node) → List (String × Toml)
  | [] => []
  | (k, n) :: es => (k, n.finish) :: finishEntries es

def finishTables : List (List (String × Node)) → List Toml
  | [] => []
  | es :: rest => .table (sortEntries (finishEntries es)) :: finishTables rest

end

/-- The finished table. -/
def Entries.finish (es : Entries) : Toml := .table (sortEntries (finishEntries es))

end BuildInputs.Toml

import Mathlib.Data.List.Basic
import BuildInputs.Proofs.Snapshot.Alike
import BuildInputs.Snapshot.Walk

/-!
# Trees from walks

A walk lists what it finds, each place with its depth, and `assemble` reads such a list into a tree
with a stack of open directories. Nothing is lost, repeated or moved on the way, whatever the depths
are; and where they are those of a tree, that tree comes out.

1. What has been read so far can be seen on the stack, from the root to the innermost directory
   (`OpenStack.sights`). Closing directories does not change it, and taking an entry puts one
   sight at its end (`sights_take`).
2. The entries of a tree (`walkFrom`) are read one subtree after the other: once the directories
   below it are closed again, a subtree is one more child of its parent
   (`closeTo_foldl_take_walkFrom`).
-/

namespace BuildInputs

/-! ## What is seen of a place -/

/-- A place as a walk sees it: a directory without what is in it, a file with its content. -/
structure Sight where
  path : Path
  kind : FileKind
  file : Option ContentHash
deriving DecidableEq

def Walked.sight (e : Walked ContentHash) : Sight :=
  ⟨e.path, if e.file.isSome then .regularFile else .directory, e.file⟩

namespace Location

def sight : Location → Sight
  | file p content => ⟨p, .regularFile, some content⟩
  | directory p _ => ⟨p, .directory, none⟩
  | missing p => ⟨p, .missing, none⟩

/-- What a visit to the location sees, in its order. -/
def sights (l : Location) : List Sight := l.visit.map fun e => e.2.sight

theorem map_sight_visitFrom (l : Location) (relative : String) :
    ((visitFrom relative l).map fun e => e.2.sight) = l.sights := by
  induction l using childInduction generalizing relative with
  | step l ih =>
    unfold sights visit
    rw [visitFrom_eq_cons, visitFrom_eq_cons, visitChildren_eq_flatMap, visitChildren_eq_flatMap,
      List.map_cons, List.map_cons, List.map_flatMap, List.map_flatMap]
    refine congrArg (l.sight :: ·) (List.flatMap_congr fun c hc => ?_)
    rw [ih c hc, ih c hc]

theorem sights_eq_cons (l : Location) : l.sights = l.sight :: l.children.flatMap sights := by
  unfold sights visit
  rw [visitFrom_eq_cons, visitChildren_eq_flatMap, List.map_cons, List.map_flatMap]
  exact congrArg (l.sight :: ·) (List.flatMap_congr fun c _ => map_sight_visitFrom c _)

end Location

/-! ## Opening and closing directories -/

namespace OpenStack

variable {s : OpenStack} {n m : Nat}

/-- Open a directory in the innermost one. -/
def enter (s : OpenStack) (p : Path) : OpenStack := { s with inner := ⟨p, []⟩ :: s.inner }

theorem take_file (s : OpenStack) (p : Path) (depth : Nat) (content : ContentHash) :
    s.take ⟨p, depth, some content⟩ = (s.closeTo (depth - 1)).add (.file p content) := rfl

theorem take_directory (s : OpenStack) (p : Path) (depth : Nat) :
    s.take ⟨p, depth, none⟩ = (s.closeTo (depth - 1)).enter p := rfl

@[simp] theorem length_add (s : OpenStack) (l : Location) :
    (s.add l).inner.length = s.inner.length := by
  unfold add
  split
  · rfl
  · next h => rw [h]; rfl

theorem closeTo_of_length_le (h : s.inner.length ≤ n) : s.closeTo n = s := by
  match s, h with
  | ⟨[], root⟩, _ => rw [closeTo]
  | ⟨d :: ds, root⟩, h => rw [closeTo, if_pos (Nat.lt_of_succ_le h)]

/-- The innermost directory is closed first. -/
theorem closeTo_cons {d : OpenDirectory} {ds : List OpenDirectory} {root : OpenDirectory}
    (h : n ≤ ds.length) : closeTo n ⟨d :: ds, root⟩ = closeTo n (add ⟨ds, root⟩ d.close) := by
  rw [closeTo, if_neg (Nat.not_lt.mpr h)]

theorem length_closeTo (n : Nat) (s : OpenStack) :
    (s.closeTo n).inner.length = min n s.inner.length := by
  fun_induction closeTo n s with
  | case1 root => exact (Nat.min_zero n).symm
  | case2 d ds root h => exact (Nat.min_eq_right h).symm
  | case3 d ds root h ih =>
    rw [ih, length_add]
    show min n ds.length = min n (ds.length + 1)
    omega

theorem length_closeTo_of_le (h : n ≤ s.inner.length) : (s.closeTo n).inner.length = n := by
  rw [length_closeTo, Nat.min_eq_left h]

/-- What is added to the innermost directory does not close it. -/
theorem closeTo_add_closeTo {l : Location} (h : n ≤ s.inner.length) :
    ((s.closeTo n).add l).closeTo n = (s.closeTo n).add l := by
  have hlength : ((s.closeTo n).add l).inner.length = n := by
    rw [length_add, length_closeTo_of_le h]
  exact closeTo_of_length_le (Nat.le_of_eq hlength)

/-- Directories may be closed in two steps. -/
theorem closeTo_closeTo (h : n ≤ m) (s : OpenStack) : (s.closeTo m).closeTo n = s.closeTo n := by
  fun_induction closeTo m s with
  | case1 root => rfl
  | case2 d ds root _ => rfl
  | case3 d ds root hlength ih => rw [ih, closeTo_cons (by omega)]

end OpenStack

/-! ## What is seen of a stack -/

def OpenDirectory.sights (d : OpenDirectory) : List Sight := d.close.sights

theorem OpenDirectory.sights_add (d : OpenDirectory) (l : Location) :
    (d.add l).sights = d.sights ++ l.sights := by
  unfold OpenDirectory.sights
  rw [Location.sights_eq_cons, Location.sights_eq_cons]
  show _ :: (d.children ++ [l]).flatMap Location.sights =
    _ :: d.children.flatMap Location.sights ++ _
  rw [List.flatMap_append, List.flatMap_singleton]
  rfl

namespace OpenStack

/-- What has been read so far, from the root to the innermost directory. -/
def sights (s : OpenStack) : List Sight :=
  s.root.sights ++ s.inner.reverse.flatMap OpenDirectory.sights

theorem sights_cons (d : OpenDirectory) (ds : List OpenDirectory) (root : OpenDirectory) :
    sights ⟨d :: ds, root⟩ = sights ⟨ds, root⟩ ++ d.sights := by
  unfold sights
  rw [List.reverse_cons, List.flatMap_append, List.flatMap_singleton, List.append_assoc]

theorem sights_add (s : OpenStack) (l : Location) : (s.add l).sights = s.sights ++ l.sights := by
  match s with
  | ⟨[], root⟩ =>
    show (root.add l).sights ++ [] = (root.sights ++ []) ++ l.sights
    rw [List.append_nil, List.append_nil, root.sights_add]
  | ⟨d :: ds, root⟩ =>
    show sights ⟨d.add l :: ds, root⟩ = _
    rw [sights_cons, sights_cons, d.sights_add, List.append_assoc]

/-- **Closing directories changes nothing that is seen.** -/
theorem sights_closeTo (n : Nat) (s : OpenStack) : (s.closeTo n).sights = s.sights := by
  fun_induction closeTo n s with
  | case1 root => rfl
  | case2 d ds root _ => rfl
  | case3 d ds root _ ih => rw [ih, sights_add, sights_cons]; rfl

theorem sights_enter (s : OpenStack) (p : Path) :
    (s.enter p).sights = s.sights ++ [⟨p, .directory, none⟩] := by
  unfold enter
  rw [sights_cons, OpenDirectory.sights, Location.sights_eq_cons]
  rfl

/-- **Taking an entry adds one sight at the end**, whatever its depth is. -/
theorem sights_take (s : OpenStack) (e : Walked ContentHash) :
    (s.take e).sights = s.sights ++ [e.sight] := by
  match e with
  | ⟨p, depth, some content⟩ =>
    rw [take_file, sights_add, sights_closeTo, Location.sights_eq_cons]
    rfl
  | ⟨p, depth, none⟩ =>
    rw [take_directory, sights_enter, sights_closeTo]
    rfl

theorem sights_foldl_take (entries : List (Walked ContentHash)) (s : OpenStack) :
    (entries.foldl take s).sights = s.sights ++ entries.map Walked.sight := by
  induction entries generalizing s with
  | nil => exact (List.append_nil _).symm
  | cons e es ih => rw [List.foldl_cons, ih, sights_take, List.append_assoc]; rfl

end OpenStack

/-- **A visit to the assembled tree sees the root and the entries, in their order.** -/
theorem sights_assemble (root : Path) (entries : List (Walked ContentHash)) :
    (assemble root entries).sights = ⟨root, .directory, none⟩ :: entries.map Walked.sight := by
  have hstart : OpenStack.sights ⟨[], ⟨root, []⟩⟩ = [⟨root, .directory, none⟩] := by
    unfold OpenStack.sights OpenDirectory.sights
    rw [Location.sights_eq_cons]
    rfl
  have hseen := OpenStack.sights_foldl_take entries ⟨[], ⟨root, []⟩⟩
  rw [hstart, ← OpenStack.sights_closeTo 0] at hseen
  -- no inner directory is open at the end
  have hinner := OpenStack.length_closeTo 0 (entries.foldl OpenStack.take ⟨[], ⟨root, []⟩⟩)
  rw [Nat.zero_min, List.length_eq_zero_iff] at hinner
  unfold OpenStack.sights at hseen
  rw [hinner] at hseen
  exact (List.append_nil _).symm.trans hseen

/-! ## Walks of trees -/

namespace Location

mutual

/-- What a walk finds at a location that is `depth` levels below the root, and below it. -/
def walkFrom (depth : Nat) : Location → List (Walked ContentHash)
  | file p content => [⟨p, depth, some content⟩]
  | directory p cs => ⟨p, depth, none⟩ :: walkChildren (depth + 1) cs
  | missing _ => []

def walkChildren (depth : Nat) : List Location → List (Walked ContentHash)
  | [] => []
  | c :: cs => walkFrom depth c ++ walkChildren depth cs

end

/-- A tree that a walk can find: files and directories, and nothing that is missing. -/
inductive Present : Location → Prop
  | file (p : Path) (content : ContentHash) : Present (file p content)
  | directory {p : Path} {cs : List Location} (hc : ∀ c ∈ cs, Present c) : Present (directory p cs)

end Location

namespace OpenStack

open Location

/-- Add finished locations to the innermost open directory, in their order. -/
def addAll (s : OpenStack) (cs : List Location) : OpenStack :=
  match s with
  | ⟨[], root⟩ => ⟨[], ⟨root.path, root.children ++ cs⟩⟩
  | ⟨d :: ds, root⟩ => ⟨⟨d.path, d.children ++ cs⟩ :: ds, root⟩

theorem addAll_nil (s : OpenStack) : s.addAll [] = s := by
  unfold addAll
  split <;> rw [List.append_nil]

theorem addAll_cons (s : OpenStack) (c : Location) (cs : List Location) :
    s.addAll (c :: cs) = (s.add c).addAll cs := by
  match s with
  | ⟨[], root⟩ =>
    show (⟨[], ⟨root.path, root.children ++ c :: cs⟩⟩ : OpenStack) =
      ⟨[], ⟨root.path, (root.children ++ [c]) ++ cs⟩⟩
    rw [List.append_assoc, List.singleton_append]
  | ⟨d :: ds, root⟩ =>
    show (⟨⟨d.path, d.children ++ c :: cs⟩ :: ds, root⟩ : OpenStack) =
      ⟨⟨d.path, (d.children ++ [c]) ++ cs⟩ :: ds, root⟩
    rw [List.append_assoc, List.singleton_append]

mutual

/--
**The entries of a subtree add that subtree.** They may leave directories open below its depth,
which the next entry closes.
-/
theorem closeTo_foldl_take_walkFrom : ∀ {c : Location}, Present c → ∀ {s : OpenStack} {n : Nat},
    n ≤ s.inner.length → ((walkFrom (n + 1) c).foldl take s).closeTo n = (s.closeTo n).add c
  | file p content, _, s, n, h => by
    rw [walkFrom, List.foldl_cons, List.foldl_nil, take_file, Nat.add_sub_cancel]
    exact closeTo_add_closeTo h
  | directory p cs, .directory hc, s, n, h => by
    have hopen := length_closeTo_of_le h
    -- the directory is the innermost one while what is below it is read
    have hlength : ((s.closeTo n).enter p).inner.length = n + 1 := congrArg (· + 1) hopen
    have hbelow : ((walkChildren (n + 2) cs).foldl take ((s.closeTo n).enter p)).closeTo (n + 1) =
        ⟨⟨p, cs⟩ :: (s.closeTo n).inner, (s.closeTo n).root⟩ := by
      rw [closeTo_foldl_take_walkChildren hc (Nat.le_of_eq hlength.symm),
        closeTo_of_length_le (Nat.le_of_eq hlength)]
      rfl
    rw [walkFrom, List.foldl_cons, take_directory, Nat.add_sub_cancel,
      ← closeTo_closeTo (Nat.le_succ n), hbelow, closeTo_cons (Nat.le_of_eq hopen.symm)]
    exact closeTo_add_closeTo h

theorem closeTo_foldl_take_walkChildren : ∀ {cs : List Location}, (∀ c ∈ cs, Present c) →
    ∀ {s : OpenStack} {n : Nat}, n ≤ s.inner.length →
      ((walkChildren (n + 1) cs).foldl take s).closeTo n = (s.closeTo n).addAll cs
  | [], _, s, n, _ => by rw [walkChildren, List.foldl_nil, addAll_nil]
  | c :: cs, hpresent, s, n, h => by
    obtain ⟨hc, hcs⟩ := List.forall_mem_cons.mp hpresent
    have hfirst := closeTo_foldl_take_walkFrom hc h
    -- closing to `n` left that many directories, so that many were open
    have hlength : n ≤ ((walkFrom (n + 1) c).foldl take s).inner.length := by
      have hclosed := congrArg (fun s => s.inner.length) hfirst
      simp only [length_add, length_closeTo] at hclosed
      omega
    rw [walkChildren, List.foldl_append, closeTo_foldl_take_walkChildren hcs hlength, hfirst,
      addAll_cons]

end

end OpenStack

/-- **The walk of a tree is assembled into that tree.** -/
theorem assemble_walkChildren (root : Path) {cs : List Location}
    (hpresent : ∀ c ∈ cs, Location.Present c) :
    assemble root (Location.walkChildren 1 cs) = .directory root cs := by
  have hstack : ((Location.walkChildren 1 cs).foldl OpenStack.take ⟨[], ⟨root, []⟩⟩).closeTo 0 =
      ⟨[], ⟨root, cs⟩⟩ := by
    rw [OpenStack.closeTo_foldl_take_walkChildren hpresent (Nat.zero_le _),
      OpenStack.closeTo_of_length_le (Nat.le_refl 0)]
    rfl
  exact congrArg (fun s => s.root.close) hstack

/--
**Assembling a walk rebuilds the tree.** Whatever the depths of the entries are, a visit to the
assembled tree sees the root and then every entry once, in the order of the list. If the list is
the walk of a directory, with the depths at which things lie there, the directory comes out itself.
-/
theorem assemble_rebuilds (root : Path) (entries : List (Walked ContentHash)) :
    ((assemble root entries).visit.map fun e => e.2.sight) =
        ⟨root, .directory, none⟩ :: entries.map Walked.sight ∧
      ∀ cs : List Location, (∀ c ∈ cs, Location.Present c) →
        entries = Location.walkChildren 1 cs → assemble root entries = .directory root cs := by
  refine ⟨sights_assemble root entries, ?_⟩
  rintro cs hpresent rfl
  exact assemble_walkChildren root hpresent

/-- A directory with a subdirectory that is left by two levels at once, and an empty one. -/
def nestedChildren : List Location :=
  [.directory ⟨"/r/a"⟩ [.directory ⟨"/r/a/empty"⟩ [],
    .directory ⟨"/r/a/lib"⟩ [.file ⟨"/r/a/lib/x"⟩ ⟨"1"⟩]], .file ⟨"/r/b"⟩ ⟨"2"⟩]

def nestedWalk : List (Walked ContentHash) :=
  [⟨⟨"/r/a"⟩, 1, none⟩, ⟨⟨"/r/a/empty"⟩, 2, none⟩, ⟨⟨"/r/a/lib"⟩, 2, none⟩,
    ⟨⟨"/r/a/lib/x"⟩, 3, some ⟨"1"⟩⟩, ⟨⟨"/r/b"⟩, 1, some ⟨"2"⟩⟩]

theorem present_nestedChildren : ∀ c ∈ nestedChildren, Location.Present c := by
  have hlib : ∀ c ∈ [Location.file ⟨"/r/a/lib/x"⟩ ⟨"1"⟩], Location.Present c :=
    List.forall_mem_singleton.mpr (.file _ _)
  have ha : ∀ c ∈ [Location.directory ⟨"/r/a/empty"⟩ [],
      .directory ⟨"/r/a/lib"⟩ [.file ⟨"/r/a/lib/x"⟩ ⟨"1"⟩]], Location.Present c :=
    List.forall_mem_cons.mpr ⟨.directory fun _ hc => absurd hc List.not_mem_nil,
      List.forall_mem_singleton.mpr (.directory hlib)⟩
  exact List.forall_mem_cons.mpr ⟨.directory ha, List.forall_mem_singleton.mpr (.file _ _)⟩

theorem assemble_rebuilds_nestedWalk :
    (∀ c ∈ nestedChildren, Location.Present c) ∧
      nestedWalk = Location.walkChildren 1 nestedChildren ∧
      assemble ⟨"/r"⟩ nestedWalk = .directory ⟨"/r"⟩ nestedChildren := by
  have hwalk : nestedWalk = Location.walkChildren 1 nestedChildren := rfl
  exact ⟨present_nestedChildren, hwalk,
    (assemble_rebuilds ⟨"/r"⟩ nestedWalk).2 _ present_nestedChildren hwalk⟩

end BuildInputs

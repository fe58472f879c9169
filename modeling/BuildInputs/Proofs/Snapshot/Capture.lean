import BuildInputs.Proofs.Except
import BuildInputs.Proofs.Path
import BuildInputs.Proofs.Snapshot.Assembly

/-!
# Capturing roots

A file system is a state here. Whatever a question asks, the answer may depend on all that went
before, and the same question may be answered differently the next time.

1. Roots are captured one after the other, each from the state that the one before it left
   (`CapturesAll`). This goes on to the end or to the first root that fails (`FailsFirst`).
2. What is captured for a root has the path of the root (`path_of_captures`).
3. Whatever a walk finds lies below its directory by a name, so it does not have an empty path
   (`text_ne_empty_of_walkBelow`), and nothing that is captured in a directory has an empty name
   (`name_ne_empty_of_captures`).
-/

namespace BuildInputs

/-! ## Assembled trees -/

theorem Location.path_sight (l : Location) : l.sight.path = l.path := by
  cases l <;> rfl

theorem path_assemble (root : Path) (entries : List (Walked ContentHash)) :
    (assemble root entries).path = root := by
  have hsights := sights_assemble root entries
  rw [Location.sights_eq_cons] at hsights
  rw [← Location.path_sight, (List.cons.inj hsights).1]

/-- What lies in an assembled directory was found on the walk. -/
theorem exists_entry_of_mem_children_assemble {root : Path} {entries : List (Walked ContentHash)}
    {c : Location} (hc : c ∈ (assemble root entries).children) :
    ∃ e ∈ entries, c.path = e.path := by
  have hsights := sights_assemble root entries
  rw [Location.sights_eq_cons] at hsights
  have hsight : c.sight ∈ (assemble root entries).children.flatMap Location.sights := by
    refine List.mem_flatMap.mpr ⟨c, hc, ?_⟩
    rw [Location.sights_eq_cons]
    exact List.mem_cons_self
  rw [(List.cons.inj hsights).2] at hsight
  obtain ⟨e, he, heq⟩ := List.mem_map.mp hsight
  refine ⟨e, he, ?_⟩
  rw [← Location.path_sight, ← heq]
  rfl

namespace Disk

variable {σ : Type} {disk : Disk (StateM σ)} {isCancelled : StateM σ Bool} {s t u : σ} {root : Path}
  {l : Location}

/-! ## One root after the other -/

/-- The root is captured as the location, if nobody cancels. -/
def Captures (disk : Disk (StateM σ)) (s : σ) (root : Path) (l : Location) (t : σ) : Prop :=
  Ends (disk.snapshotRoot (pure false) root) s (.ok l) t

/-- The root cannot be captured, though nobody cancels. -/
def Fails (disk : Disk (StateM σ)) (s : σ) (root : Path) (e : SnapshotError) (t : σ) : Prop :=
  Ends (disk.snapshotRoot (pure false) root) s (.error e) t

/-- The roots are captured in their order, each from the state that the one before it left. -/
inductive CapturesAll (disk : Disk (StateM σ)) : σ → List Path → List Location → σ → Prop
  | nil (s : σ) : CapturesAll disk s [] [] s
  | cons {s t u : σ} {root : Path} {l : Location} {roots : List Path} {ls : List Location}
    (h : disk.Captures s root l t) (hs : CapturesAll disk t roots ls u) :
    CapturesAll disk s (root :: roots) (l :: ls) u

/-- One of the roots cannot be captured, and those before it are. -/
def FailsFirst (disk : Disk (StateM σ)) (s : σ) (roots : List Path) (e : SnapshotError) (t : σ) :
    Prop :=
  ∃ before root after ls u, roots = before ++ root :: after ∧
    disk.CapturesAll s before ls u ∧ disk.Fails u root e t

theorem snapshotRoots_cons (disk : Disk (StateM σ)) (root : Path) (roots : List Path) :
    disk.snapshotRoots (pure false) (root :: roots) = do
      let l ← disk.snapshotRoot (pure false) root
      let ls ← disk.snapshotRoots (pure false) roots
      return l :: ls := rfl

theorem ends_snapshotRoots_ok_iff {roots : List Path} {ls : List Location} :
    Ends (disk.snapshotRoots (pure false) roots) s (.ok ls) t ↔ disk.CapturesAll s roots ls t := by
  induction roots generalizing s ls with
  | nil =>
    rw [snapshotRoots, ends_pure_iff]
    constructor
    · rintro ⟨heq, rfl⟩
      cases heq
      exact .nil s
    · rintro (_ | _)
      exact ⟨rfl, rfl⟩
  | cons root roots ih =>
    rw [snapshotRoots_cons, ends_bind_ok_iff]
    constructor
    · rintro ⟨l, u, hl, h⟩
      obtain ⟨ls', v, hls, h⟩ := ends_bind_ok_iff.mp h
      obtain ⟨heq, rfl⟩ := ends_pure_iff.mp h
      cases heq
      exact .cons hl (ih.mp hls)
    · rintro (_ | ⟨hl, hls⟩)
      exact ⟨_, _, hl, ends_bind_ok_iff.mpr ⟨_, _, ih.mpr hls, ends_pure_iff.mpr ⟨rfl, rfl⟩⟩⟩

theorem failsFirst_cons_iff {roots : List Path} {e : SnapshotError} :
    disk.FailsFirst s (root :: roots) e t ↔
      disk.Fails s root e t ∨ ∃ l u, disk.Captures s root l u ∧ disk.FailsFirst u roots e t := by
  constructor
  · rintro ⟨before, failing, after, ls, u, heq, hls, hfail⟩
    cases hls with
    | nil =>
      cases heq
      exact .inl hfail
    | cons hl hls =>
      cases heq
      exact .inr ⟨_, _, hl, _, failing, after, _, u, rfl, hls, hfail⟩
  · rintro (hfail | ⟨l, u, hl, before, failing, after, ls, v, rfl, hls, hfail⟩)
    · exact ⟨[], root, roots, [], s, rfl, .nil s, hfail⟩
    · exact ⟨root :: before, failing, after, l :: ls, v, rfl, .cons hl hls, hfail⟩

theorem ends_snapshotRoots_error_iff {roots : List Path} {e : SnapshotError} :
    Ends (disk.snapshotRoots (pure false) roots) s (.error e) t ↔ disk.FailsFirst s roots e t := by
  induction roots generalizing s with
  | nil =>
    rw [snapshotRoots, ends_pure_iff]
    constructor
    · rintro ⟨heq, -⟩
      cases heq
    · rintro ⟨before, failing, after, -, -, heq, -, -⟩
      cases before <;> cases heq
  | cons root roots ih =>
    rw [snapshotRoots_cons, ends_bind_error_iff, failsFirst_cons_iff]
    refine or_congr_right (exists_congr fun l => exists_congr fun u => and_congr_right fun _ => ?_)
    rw [← ih, ends_bind_error_iff]
    constructor
    · rintro (hfail | ⟨ls, v, -, h⟩)
      · exact hfail
      · cases (ends_pure_iff.mp h).1
    · exact .inl

/-- A snapshot comes to what capturing the roots comes to. -/
theorem snapshot_eq_iff {roots : List Path} {r : Except SnapshotError (List Location)} :
    (disk.snapshot isCancelled roots).run s = (r.map Snapshot.mk, t) ↔
      Ends (disk.snapshotRoots isCancelled roots) s r t := by
  obtain ⟨r', u, h⟩ := exists_ends (disk.snapshotRoots isCancelled roots) s
  have hrun : (disk.snapshot isCancelled roots).run s = (r'.map Snapshot.mk, u) := by
    unfold Ends at h
    rw [snapshot, StateT.run_bind, h]
    rfl
  rw [hrun]
  constructor
  · intro heq
    obtain ⟨hmap, rfl⟩ := Prod.mk.inj heq
    have hresult : r' = r := by
      cases r' <;> cases r <;> cases hmap <;> rfl
    exact hresult ▸ h
  · intro hroots
    obtain ⟨rfl, rfl⟩ := h.unique hroots
    rfl

/-- **A snapshot that is taken has captured all roots.** -/
theorem snapshot_eq_ok_iff {roots : List Path} {snap : Snapshot} :
    (disk.snapshot (pure false) roots).run s = (.ok snap, t) ↔
      disk.CapturesAll s roots snap.roots t := by
  rw [← ends_snapshotRoots_ok_iff, ← snapshot_eq_iff]
  rfl

/-- **A snapshot that is not taken gives the error of the first root that fails.** -/
theorem snapshot_eq_error_iff {roots : List Path} {e : SnapshotError} :
    (disk.snapshot (pure false) roots).run s = (.error e, t) ↔ disk.FailsFirst s roots e t := by
  rw [← ends_snapshotRoots_error_iff, ← snapshot_eq_iff]
  rfl

/-! ## One root -/

/-- What a root is captured as. -/
theorem captures_cases (h : disk.Captures s root l t) :
    (∃ u, (disk.place root).run s = (.ok .directory, u) ∧
        Ends (disk.snapshotDirectory (pure false) root) u (.ok l) t) ∨
      (∃ content, l = .file root content) ∨ l = .missing root := by
  unfold Captures snapshotRoot at h
  rw [ends_lift_bind_iff] at h
  cases hplace : (disk.place root).run s with
  | mk answer u =>
    rw [hplace] at h
    match answer with
    | .ok .directory => exact .inl ⟨u, rfl, h⟩
    | .ok .file =>
      obtain ⟨content, v, -, h⟩ := ends_bind_ok_iff.mp h
      cases (ends_pure_iff.mp h).1
      exact .inr (.inl ⟨content, rfl⟩)
    | .ok .special =>
      cases (ends_pure_iff.mp h).1
      exact .inr (.inr rfl)
    | .error e =>
      cases e with
      | notFound =>
        rw [ends_lift_bind_iff] at h
        split at h
        · cases (ends_throw_iff.mp h).1
        · cases (ends_pure_iff.mp h).1
          exact .inr (.inr rfl)
      | _ => cases (ends_throw_iff.mp h).1

theorem snapshotDirectory_cases
    (h : Ends (disk.snapshotDirectory isCancelled root) s (.ok l) t) :
    ∃ found hashed u, Ends (disk.walk isCancelled root) s (.ok found) u ∧
      Ends (found.mapM (disk.hashWalked isCancelled)) u (.ok hashed) t ∧
      l = assemble root hashed := by
  obtain ⟨found, u, hfound, h⟩ := ends_bind_ok_iff.mp h
  obtain ⟨hashed, v, hhashed, h⟩ := ends_bind_ok_iff.mp h
  obtain ⟨heq, rfl⟩ := ends_pure_iff.mp h
  exact ⟨found, hashed, u, hfound, hhashed, Except.ok.inj heq⟩

/-- **What is captured for a root has its path.** -/
theorem path_of_captures (h : disk.Captures s root l t) : l.path = root := by
  rcases captures_cases h with ⟨u, -, h⟩ | ⟨content, rfl⟩ | rfl
  · obtain ⟨-, hashed, -, -, -, rfl⟩ := snapshotDirectory_cases h
    exact path_assemble root hashed
  · rfl
  · rfl

/-! ## Names -/

theorem path_of_hashWalked {e : Walked Unit} {e' : Walked ContentHash}
    (h : Ends (disk.hashWalked isCancelled e) s (.ok e') t) : e'.path = e.path := by
  unfold hashWalked at h
  split at h
  · obtain ⟨content, u, -, h⟩ := ends_bind_ok_iff.mp h
    cases (ends_pure_iff.mp h).1
    rfl
  · cases (ends_pure_iff.mp h).1
    rfl

/-- A walk that is given up finds nothing. -/
theorem not_ends_giveUp_ok {α : Type} {e : WalkError} {a : α} :
    ¬ Ends (disk.giveUp isCancelled root e) s (.ok a) t := by
  intro h
  obtain ⟨-, u, -, h⟩ := ends_bind_ok_iff.mp h
  rw [ends_lift_bind_iff] at h
  cases (ends_throw_iff.mp h).1

/-- What the walk gets to in a directory lies in it by a name. -/
theorem exists_name_of_enter {above : List Path} {directory p : Path} {kind : PlaceKind}
    {e : Except EntryError DirectoryEntry}
    (h : Ends (disk.enter above directory e) s (.ok (p, kind)) t) :
    ∃ name, p = directory.join ⟨name⟩ := by
  cases e with
  | error e => cases (ends_throw_iff.mp h).1
  | ok e =>
    obtain ⟨kind', u, -, h⟩ := ends_bind_ok_iff.mp h
    cases (ends_pure_iff.mp h).1
    exact ⟨e.name, rfl⟩

/-- Below a directory whose path is not empty a walk finds no empty path. -/
theorem text_ne_empty_of_walkBelow {levels : Nat} {above : List Path} {directory : Path}
    {depth : Nat} {listing : Except DiskError DirectoryListing} {found : List (Walked Unit)}
    (hdirectory : directory.text ≠ "")
    (h : Ends (disk.walkBelow isCancelled root levels above directory depth listing) s
      (.ok found) t) : ∀ e ∈ found, e.path.text ≠ "" := by
  induction levels generalizing above directory depth listing found s t with
  | zero =>
    unfold walkBelow at h
    cases (ends_throw_iff.mp h).1
  | succ levels ih =>
    cases listing with
    | error cause => exact absurd h not_ends_giveUp_ok
    | ok entries =>
      unfold walkBelow at h
      obtain ⟨lists, v, hlists, h⟩ := ends_bind_ok_iff.mp h
      cases (ends_pure_iff.mp h).1
      intro e he
      obtain ⟨list, hlist, he⟩ := List.mem_flatten.mp he
      obtain ⟨entry, -, u, u', h⟩ := exists_ends_of_mem hlists list hlist
      rw [ends_lift_bind_iff] at h
      cases hentered : (disk.enter above directory entry).run.run u with
      | mk entered w =>
        rw [hentered] at h
        cases entered with
        | error e => exact absurd h not_ends_giveUp_ok
        | ok place =>
          obtain ⟨p, kind⟩ := place
          obtain ⟨name, rfl⟩ := exists_name_of_enter hentered
          have hpath := Path.text_join_ne_empty hdirectory ⟨name⟩
          cases kind with
          | directory =>
            rw [ends_lift_bind_iff] at h
            obtain ⟨_, _, -, h⟩ := ends_bind_ok_iff.mp h
            obtain ⟨below, w', hbelow, h⟩ := ends_bind_ok_iff.mp h
            cases (ends_pure_iff.mp h).1
            rcases List.mem_cons.mp he with rfl | he
            · exact hpath
            · exact ih hpath hbelow e he
          | file =>
            obtain ⟨_, _, -, h⟩ := ends_bind_ok_iff.mp h
            cases (ends_pure_iff.mp h).1
            cases List.mem_singleton.mp he
            exact hpath
          | special =>
            obtain ⟨_, _, -, h⟩ := ends_bind_ok_iff.mp h
            cases (ends_pure_iff.mp h).1
            cases he

theorem text_ne_empty_of_walk {found : List (Walked Unit)} (hroot : root.text ≠ "")
    (h : Ends (disk.walk isCancelled root) s (.ok found) t) :
    ∀ e ∈ found, e.path.text ≠ "" := by
  unfold walk at h
  rw [ends_lift_bind_iff] at h
  split at h
  · exact absurd h not_ends_giveUp_ok
  · rw [ends_lift_bind_iff] at h
    exact text_ne_empty_of_walkBelow hroot h
  · cases (ends_pure_iff.mp h).1
    exact List.forall_mem_nil _

/-- The empty path leads nowhere, as path resolution has it. -/
def RefusesEmptyPath (disk : Disk (StateM σ)) : Prop :=
  ∀ s, ∃ e t, (disk.place ⟨""⟩).run s = (.error e, t)

/-- **Nothing that is captured in a directory has an empty name.** -/
theorem name_ne_empty_of_captures (hdisk : root = ⟨""⟩ → disk.RefusesEmptyPath)
    (h : disk.Captures s root l t) : ∀ c ∈ l.children, c.name ≠ "" := by
  intro c hc
  rcases captures_cases h with ⟨u, hplace, h⟩ | ⟨content, rfl⟩ | rfl
  · have hroot : root.text ≠ "" := by
      intro hempty
      have hpath : root = ⟨""⟩ := congrArg Path.mk hempty
      obtain ⟨e, v, hrefused⟩ := hdisk hpath s
      rw [hpath, hrefused] at hplace
      cases hplace
    obtain ⟨found, hashed, v, hfound, hhashed, rfl⟩ := snapshotDirectory_cases h
    obtain ⟨e', he', hpath⟩ := exists_entry_of_mem_children_assemble hc
    obtain ⟨e, he, w, w', hends⟩ := exists_ends_of_mem hhashed e' he'
    have htext : c.path.text ≠ "" := by
      rw [hpath, path_of_hashWalked hends]
      exact text_ne_empty_of_walk hroot hfound e he
    exact Path.name_ne_empty htext
  · cases hc
  · cases hc

/-! ## All roots -/

variable {roots : List Path} {ls : List Location}

/-- **One location for every root**, with its path. -/
theorem CapturesAll.map_path (h : disk.CapturesAll s roots ls t) :
    ls.map Location.path = roots := by
  induction h with
  | nil s => rfl
  | cons h hs ih => rw [List.map_cons, path_of_captures h, ih]

theorem CapturesAll.name_ne_empty (hdisk : ⟨""⟩ ∈ roots → disk.RefusesEmptyPath)
    (h : disk.CapturesAll s roots ls t) : ∀ l ∈ ls, ∀ c ∈ l.children, c.name ≠ "" := by
  induction h with
  | nil s => exact List.forall_mem_nil _
  | cons h hs ih =>
    have hhead := name_ne_empty_of_captures (fun heq => hdisk (heq ▸ List.mem_cons_self)) h
    have htail := ih fun hmem => hdisk (List.mem_cons_of_mem _ hmem)
    exact List.forall_mem_cons.mpr ⟨hhead, htail⟩

end Disk

end BuildInputs

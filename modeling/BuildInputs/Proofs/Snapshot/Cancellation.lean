import BuildInputs.Proofs.Snapshot.Capture

/-!
# Cancelling

Somebody may cancel while a snapshot is being taken, and the question whether that has happened may
be answered differently each time. All that an answer can do is to end the work: there is no
snapshot then, and no part of one.

1. One computation cuts another one short (`CutsShort`) if it ends as the other one does or because
   somebody has cancelled. Steps in a row and traversals keep this.
2. To ask whether somebody has cancelled cuts short to go on (`cutsShort_checkCancelled`).
   Everything else that is done for a snapshot is the same whether somebody may cancel or not, so
   the whole of it is cut short (`cutsShort_snapshotRoots`), and so is the snapshot
   (`snapshot_eq_cancelled_or`).
-/

namespace BuildInputs

variable {σ : Type}

/-- It ends as the other computation does, or because somebody has cancelled. -/
def CutsShort {α : Type} (x y : ExceptT SnapshotError (StateM σ) α) : Prop :=
  ∀ s r t, Ends x s r t → r = .error .cancelled ∨ Ends y s r t

namespace CutsShort

variable {α β : Type} {x y : ExceptT SnapshotError (StateM σ) α}
  {f g : α → ExceptT SnapshotError (StateM σ) β}

theorem refl (x : ExceptT SnapshotError (StateM σ) α) : CutsShort x x :=
  fun _ _ _ h => .inr h

theorem bind (hx : CutsShort x y) (hf : ∀ a, CutsShort (f a) (g a)) :
    CutsShort (x >>= f) (y >>= g) := by
  intro s r t h
  obtain ⟨first, u, hfirst⟩ := exists_ends x s
  cases first with
  | error e =>
    obtain ⟨rfl, rfl⟩ := hfirst.bind_of_error.mp h
    rcases hx s _ u hfirst with heq | hfail
    · cases heq
      exact .inl rfl
    · exact .inr (hfail.bind_of_error.mpr ⟨rfl, rfl⟩)
  | ok a =>
    rcases hf a u r t (hfirst.bind_of_ok.mp h) with heq | hrest
    · exact .inl heq
    · rcases hx s _ u hfirst with heq | hok
      · cases heq
      · exact .inr (hok.bind_of_ok.mpr hrest)

theorem mapM (hf : ∀ a, CutsShort (f a) (g a)) (xs : List α) :
    CutsShort (xs.mapM f) (xs.mapM g) := by
  induction xs with
  | nil => exact refl _
  | cons x xs ih =>
    rw [List.mapM_cons, List.mapM_cons]
    exact (hf x).bind fun _ => ih.bind fun _ => refl _

end CutsShort

namespace Disk

open CutsShort (refl)

variable {disk : Disk (StateM σ)} {isCancelled : StateM σ Bool} {root : Path}
  (hlooks : ∀ s, (isCancelled.run s).2 = s)

include hlooks

/-- **Asking whether somebody has cancelled** changes nothing unless somebody has. -/
theorem cutsShort_checkCancelled :
    CutsShort (checkCancelled isCancelled) (checkCancelled (pure false)) := by
  intro s r t h
  unfold checkCancelled at h
  rw [ends_lift_bind_iff, hlooks] at h
  split at h
  · exact .inl (ends_throw_iff.mp h).1
  · exact .inr h

theorem cutsShort_giveUp {α : Type} (e : WalkError) :
    CutsShort (disk.giveUp isCancelled root e : ExceptT SnapshotError (StateM σ) α)
      (disk.giveUp (pure false) root e) :=
  (cutsShort_checkCancelled hlooks).bind fun _ => refl _

theorem cutsShort_walkBelow {levels : Nat} {above : List Path} {directory : Path} {depth : Nat}
    {listing : Except DiskError DirectoryListing} :
    CutsShort (disk.walkBelow isCancelled root levels above directory depth listing)
      (disk.walkBelow (pure false) root levels above directory depth listing) := by
  induction levels generalizing above directory depth listing with
  | zero => exact refl _
  | succ levels ih =>
    cases listing with
    | error cause => exact cutsShort_giveUp hlooks _
    | ok entries =>
      unfold walkBelow
      refine (CutsShort.mapM (fun e => ?_) _).bind fun _ => refl _
      refine (refl _).bind fun entered => ?_
      cases entered with
      | error e => exact cutsShort_giveUp hlooks e
      | ok place =>
        obtain ⟨p, kind⟩ := place
        cases kind with
        | directory =>
          refine (refl _).bind fun listing => ?_
          exact (cutsShort_checkCancelled hlooks).bind fun _ => ih.bind fun _ => refl _
        | file => exact (cutsShort_checkCancelled hlooks).bind fun _ => refl _
        | special => exact (cutsShort_checkCancelled hlooks).bind fun _ => refl _

theorem cutsShort_walk : CutsShort (disk.walk isCancelled root) (disk.walk (pure false) root) := by
  refine (refl _).bind fun entered => ?_
  cases entered with
  | error e => exact cutsShort_giveUp hlooks e
  | ok kind =>
    cases kind with
    | directory => exact (refl _).bind fun _ => cutsShort_walkBelow hlooks
    | file | special => exact refl _

theorem cutsShort_hashForSnapshot (p : Path) :
    CutsShort (disk.hashForSnapshot isCancelled p) (disk.hashForSnapshot (pure false) p) :=
  (cutsShort_checkCancelled hlooks).bind fun _ => refl _

theorem cutsShort_hashWalked (e : Walked Unit) :
    CutsShort (disk.hashWalked isCancelled e) (disk.hashWalked (pure false) e) := by
  unfold hashWalked
  split
  · exact (cutsShort_hashForSnapshot hlooks _).bind fun _ => refl _
  · exact refl _

theorem cutsShort_snapshotRoot (root : Path) :
    CutsShort (disk.snapshotRoot isCancelled root) (disk.snapshotRoot (pure false) root) := by
  refine (refl _).bind fun place => ?_
  cases place with
  | error e => cases e <;> exact refl _
  | ok kind =>
    cases kind with
    | directory =>
      refine (cutsShort_walk hlooks).bind fun found => ?_
      exact (CutsShort.mapM (cutsShort_hashWalked hlooks) found).bind fun _ => refl _
    | file => exact (cutsShort_hashForSnapshot hlooks _).bind fun _ => refl _
    | special => exact refl _

theorem cutsShort_snapshotRoots (roots : List Path) :
    CutsShort (disk.snapshotRoots isCancelled roots) (disk.snapshotRoots (pure false) roots) := by
  induction roots with
  | nil => exact refl _
  | cons root roots ih =>
    refine (cutsShort_checkCancelled hlooks).bind fun _ => ?_
    exact (cutsShort_snapshotRoot hlooks root).bind fun _ => ih.bind fun _ => refl _

variable {roots : List Path} {s t : σ}

/-- **Cancelling can only end a snapshot.** Unless it does, the snapshot or its error is the same. -/
theorem snapshot_eq_cancelled_or {r : Except SnapshotError Snapshot}
    (h : (disk.snapshot isCancelled roots).run s = (r, t)) :
    r = .error .cancelled ∨ (disk.snapshot (pure false) roots).run s = (r, t) := by
  obtain ⟨ls, rfl⟩ : ∃ ls : Except SnapshotError (List Location), r = ls.map Snapshot.mk :=
    ⟨r.map Snapshot.roots, by cases r <;> rfl⟩
  rcases cutsShort_snapshotRoots hlooks roots s ls t (snapshot_eq_iff.mp h) with rfl | hroots
  · exact .inl rfl
  · exact .inr (snapshot_eq_iff.mpr hroots)

/--
**Cancelling leaves the whole snapshot or nothing.** A snapshot that is taken while somebody may
cancel has captured all roots, as it would have been if nobody could.
-/
theorem capturesAll_of_snapshot {snap : Snapshot}
    (h : (disk.snapshot isCancelled roots).run s = (.ok snap, t)) :
    disk.CapturesAll s roots snap.roots t := by
  rcases snapshot_eq_cancelled_or hlooks h with heq | h
  · cases heq
  · exact snapshot_eq_ok_iff.mp h

end Disk

end BuildInputs

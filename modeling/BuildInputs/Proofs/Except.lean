import Mathlib.Data.List.Forall2

/-!
# Computations that may fail

A computation in steps returns when all of its steps return, and fails with the error of the first
step that fails. So an error of the whole is an error of some step: the lemmas here find it.
-/

namespace BuildInputs

variable {ε ε' α β : Type} {e : ε}

section Bind

variable {x : Except ε α} {f : α → Except ε β}

/-- A bind returns when both of its parts do. -/
theorem bind_eq_ok {b : β} : (x >>= f) = .ok b ↔ ∃ a, x = .ok a ∧ f a = .ok b := by
  cases x with
  | error e =>
    constructor
    · intro h; cases h
    · rintro ⟨a, h, -⟩; cases h
  | ok a =>
    constructor
    · intro h; exact ⟨a, rfl, h⟩
    · rintro ⟨a', h, hf⟩; cases h; exact hf

theorem exists_bind_eq_ok_iff : (∃ b, (x >>= f) = .ok b) ↔ ∃ a, x = .ok a ∧ ∃ b, f a = .ok b := by
  simp only [bind_eq_ok]
  exact ⟨fun ⟨b, a, ha, hb⟩ => ⟨a, ha, b, hb⟩, fun ⟨a, ha, b, hb⟩ => ⟨b, a, ha, hb⟩⟩

/-- A bind fails when its first part does, or the second part after it. -/
theorem bind_eq_error : (x >>= f) = .error e ↔
    x = .error e ∨ ∃ a, x = .ok a ∧ f a = .error e := by
  cases x with
  | error e' =>
    constructor
    · intro h; cases h; exact .inl rfl
    · rintro (h | ⟨a, h, -⟩)
      · cases h; rfl
      · cases h
  | ok a =>
    constructor
    · intro h; exact .inr ⟨a, rfl, h⟩
    · rintro (h | ⟨a', h, hf⟩)
      · cases h
      · cases h; exact hf

end Bind

/-- A computation fails unless it returns. -/
theorem exists_error_iff {x : Except ε α} : (∃ e, x = .error e) ↔ ¬ ∃ a, x = .ok a := by
  cases x with
  | error e => exact ⟨fun _ ⟨_, h⟩ => (by cases h), fun _ => ⟨e, rfl⟩⟩
  | ok a => exact ⟨fun ⟨_, h⟩ => (by cases h), fun h => absurd ⟨a, rfl⟩ h⟩

theorem mapError_eq_ok_iff {x : Except ε α} {f : ε → ε'} {a : α} :
    x.mapError f = .ok a ↔ x = .ok a := by
  cases x <;> simp [Except.mapError]

theorem mapError_eq_error_iff {x : Except ε α} {f : ε → ε'} {e' : ε'} :
    x.mapError f = .error e' ↔ ∃ e, x = .error e ∧ f e = e' := by
  cases x with
  | error e =>
    constructor
    · intro h; exact ⟨e, rfl, Except.error.inj h⟩
    · rintro ⟨e, h, rfl⟩; cases h; rfl
  | ok a =>
    constructor
    · intro h; cases h
    · rintro ⟨e, h, -⟩; cases h

section Traversal

variable {xs : List α}

/-- A traversal that fails does so at an element. -/
theorem exists_of_mapM_eq_error {f : α → Except ε β} (h : xs.mapM f = .error e) :
    ∃ x ∈ xs, f x = .error e := by
  induction xs with
  | nil => cases h
  | cons x xs ih =>
    rw [List.mapM_cons] at h
    rcases bind_eq_error.mp h with h | ⟨y, -, h⟩
    · exact ⟨x, List.mem_cons_self, h⟩
    rcases bind_eq_error.mp h with h | ⟨ys, -, h⟩
    · obtain ⟨z, hz, h⟩ := ih h
      exact ⟨z, List.mem_cons_of_mem _ hz, h⟩
    · cases h

/-- **A traversal returns what its elements return**, one by one. -/
theorem mapM_eq_ok_iff {f : α → Except ε β} {ys : List β} :
    xs.mapM f = .ok ys ↔ List.Forall₂ (fun x y => f x = .ok y) xs ys := by
  induction xs generalizing ys with
  | nil =>
    rw [List.mapM_nil, List.forall₂_nil_left_iff]
    exact ⟨fun h => (Except.ok.inj h).symm, fun h => congrArg Except.ok h.symm⟩
  | cons x xs ih =>
    rw [List.mapM_cons, bind_eq_ok]
    constructor
    · rintro ⟨y, hy, h⟩
      obtain ⟨ys, hys, h⟩ := bind_eq_ok.mp h
      cases h
      exact .cons hy (ih.mp hys)
    · rintro (_ | ⟨hy, hys⟩)
      exact ⟨_, hy, bind_eq_ok.mpr ⟨_, ih.mpr hys, rfl⟩⟩

/-- A traversal returns when all of its elements do. -/
theorem exists_mapM_eq_ok_iff {f : α → Except ε β} :
    (∃ ys, xs.mapM f = .ok ys) ↔ ∀ x ∈ xs, ∃ y, f x = .ok y := by
  simp only [mapM_eq_ok_iff]
  induction xs with
  | nil => exact ⟨fun _ _ h => (by cases h), fun _ => ⟨[], .nil⟩⟩
  | cons x xs ih =>
    rw [List.forall_mem_cons, ← ih]
    constructor
    · rintro ⟨_, _ | ⟨hy, hys⟩⟩
      exact ⟨⟨_, hy⟩, _, hys⟩
    · rintro ⟨⟨y, hy⟩, ys, hys⟩
      exact ⟨y :: ys, .cons hy hys⟩

section Returned

variable {f : α → Except ε β} {ys : List β}

/-- What a traversal returns is what is returned for its elements. -/
theorem mem_iff_of_mapM_eq_ok (h : xs.mapM f = .ok ys) {y : β} :
    y ∈ ys ↔ ∃ x ∈ xs, f x = .ok y := by
  induction mapM_eq_ok_iff.mp h with
  | nil => simp
  | @cons x b xs ys hb hys ih =>
    have hhead : f x = .ok y ↔ y = b := by rw [hb, Except.ok.injEq, eq_comm]
    simp only [List.mem_cons, exists_eq_or_imp, hhead, ih (mapM_eq_ok_iff.mpr hys)]

/-- What every element passes on is passed on by the traversal. -/
theorem map_eq_map_of_mapM_eq_ok {γ : Type} {g : β → γ} {g' : α → γ} (h : xs.mapM f = .ok ys)
    (hg : ∀ x y, f x = .ok y → g y = g' x) : ys.map g = xs.map g' := by
  induction mapM_eq_ok_iff.mp h with
  | nil => rfl
  | cons hy hys ih =>
    rw [List.map_cons, List.map_cons, hg _ _ hy, ih (mapM_eq_ok_iff.mpr hys)]

end Returned

/-- A fold that fails does so at an element. -/
theorem exists_of_foldlM_eq_error {f : β → α → Except ε β} {init : β}
    (h : xs.foldlM f init = .error e) : ∃ x ∈ xs, ∃ b, f b x = .error e := by
  induction xs generalizing init with
  | nil => cases h
  | cons x xs ih =>
    rw [List.foldlM_cons] at h
    rcases bind_eq_error.mp h with h | ⟨b, -, h⟩
    · exact ⟨x, List.mem_cons_self, init, h⟩
    · obtain ⟨y, hy, hfail⟩ := ih h
      exact ⟨y, List.mem_cons_of_mem _ hy, hfail⟩

end Traversal

/-! ## Computations with a state

A computation may change a state besides, and what it comes to may depend on the state that it
starts in. What was done before a failure stays.
-/

section State

variable {σ : Type} {s t u v : σ} {x : ExceptT ε (StateM σ) α} {f : α → ExceptT ε (StateM σ) β}

/-- The computation that starts in `s` comes to the result and leaves `t` behind. -/
def Ends (x : ExceptT ε (StateM σ) α) (s : σ) (r : Except ε α) (t : σ) : Prop :=
  x.run.run s = (r, t)

/-- From every state it ends in one way. -/
theorem exists_ends (x : ExceptT ε (StateM σ) α) (s : σ) : ∃ r t, Ends x s r t := ⟨_, _, rfl⟩

theorem Ends.unique {r r' : Except ε α} (h : Ends x s r t) (h' : Ends x s r' u) :
    r = r' ∧ t = u :=
  Prod.mk.inj (Eq.trans (Eq.symm h) h')

theorem ends_pure_iff {a : α} {r : Except ε α} :
    Ends (pure a : ExceptT ε (StateM σ) α) s r t ↔ r = .ok a ∧ s = t := by
  show ((Except.ok a, s) : Except ε α × σ) = (r, t) ↔ _
  rw [Prod.mk.injEq, eq_comm]

theorem ends_throw_iff {r : Except ε α} :
    Ends (throw e : ExceptT ε (StateM σ) α) s r t ↔ r = .error e ∧ s = t := by
  show ((Except.error e, s) : Except ε α × σ) = (r, t) ↔ _
  rw [Prod.mk.injEq, eq_comm]

theorem Ends.bind_of_ok {a : α} {r : Except ε β} (h : Ends x s (.ok a) u) :
    Ends (x >>= f) s r t ↔ Ends (f a) u r t := by
  unfold Ends at h ⊢
  rw [ExceptT.run_bind, StateT.run_bind, h]
  rfl

theorem Ends.bind_of_error {r : Except ε β} (h : Ends x s (.error e) u) :
    Ends (x >>= f) s r t ↔ r = .error e ∧ u = t := by
  unfold Ends at h ⊢
  rw [ExceptT.run_bind, StateT.run_bind, h]
  show ((Except.error e, u) : Except ε β × σ) = (r, t) ↔ _
  rw [Prod.mk.injEq, eq_comm]

/-- The second part goes on where the first one ended. -/
theorem ends_bind_ok_iff {b : β} : Ends (x >>= f) s (.ok b) t ↔
    ∃ a u, Ends x s (.ok a) u ∧ Ends (f a) u (.ok b) t := by
  obtain ⟨r, v, h⟩ := exists_ends x s
  cases r with
  | error e =>
    rw [h.bind_of_error]
    constructor
    · rintro ⟨hfail, -⟩
      cases hfail
    · rintro ⟨a, u, ha, -⟩
      cases (h.unique ha).1
  | ok a =>
    rw [h.bind_of_ok]
    constructor
    · intro hb
      exact ⟨a, v, h, hb⟩
    · rintro ⟨a', u, ha, hb⟩
      obtain ⟨heq, rfl⟩ := h.unique ha
      cases heq
      exact hb

/-- It fails in its first part, or in the second one after it. -/
theorem ends_bind_error_iff : Ends (x >>= f) s (.error e) t ↔
    Ends x s (.error e) t ∨ ∃ a u, Ends x s (.ok a) u ∧ Ends (f a) u (.error e) t := by
  obtain ⟨r, v, h⟩ := exists_ends x s
  cases r with
  | error e' =>
    rw [h.bind_of_error]
    constructor
    · rintro ⟨hfail, rfl⟩
      cases hfail
      exact .inl h
    · rintro (hfail | ⟨a, u, ha, -⟩)
      · obtain ⟨heq, rfl⟩ := h.unique hfail
        cases heq
        exact ⟨rfl, rfl⟩
      · cases (h.unique ha).1
  | ok a =>
    rw [h.bind_of_ok]
    constructor
    · intro hfail
      exact .inr ⟨a, v, h, hfail⟩
    · rintro (hfail | ⟨a', u, ha, hfail⟩)
      · cases (h.unique hfail).1
      · obtain ⟨heq, rfl⟩ := h.unique ha
        cases heq
        exact hfail

/-- A step that cannot fail is taken first. -/
theorem ends_lift_bind_iff {act : StateM σ α} {r : Except ε β} :
    Ends (liftM act >>= f) s r t ↔ Ends (f (act.run s).1) (act.run s).2 r t :=
  Iff.rfl

/-- What a traversal returns comes from its elements, each from some state on the way. -/
theorem exists_ends_of_mem {xs : List α} {ys : List β} (h : Ends (xs.mapM f) s (.ok ys) t) :
    ∀ y ∈ ys, ∃ x ∈ xs, ∃ u v, Ends (f x) u (.ok y) v := by
  induction xs generalizing s t ys with
  | nil =>
    rw [List.mapM_nil, ends_pure_iff] at h
    cases h.1
    exact List.forall_mem_nil _
  | cons x xs ih =>
    rw [List.mapM_cons] at h
    obtain ⟨y, u, hy, h⟩ := ends_bind_ok_iff.mp h
    obtain ⟨ys', v, hys, h⟩ := ends_bind_ok_iff.mp h
    cases (ends_pure_iff.mp h).1
    refine List.forall_mem_cons.mpr ⟨⟨x, List.mem_cons_self, s, u, hy⟩, fun z hz => ?_⟩
    obtain ⟨x', hx', hends⟩ := ih hys z hz
    exact ⟨x', List.mem_cons_of_mem _ hx', hends⟩

end State

end BuildInputs

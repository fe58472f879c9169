import BuildInputs.Proofs.Matching.Candidates

/-!
# Irrelevant input does not matter

A selection looks at attributes that are requested or in the precedence (`Relevant`), and at
candidates that match. Two runs are compared: one of a list of candidates, and one of the same list
after a reduction that deleted candidates without a match and attributes that are not relevant. What
the second run selects comes from what the first one selects, and where one of them fails the other
one fails with the same error.

1. Sets that agree on the relevant names give the same answers (`AgreeOnRelevant.isMatch_eq`).
2. The reduced candidates are matched with the same result (`Reduction.compatible_eq`), and those
   that match agree with what they come from.
3. Every round then does the same to both lists (`narrowBy_map`), hence all of them (`narrow_map`).
-/

namespace BuildInputs

/-! ## Agreement -/

/-- The sets have the same entry under a name, or none of them has one. -/
def AttributeSet.AgreeAt (name : String) (c d : AttributeSet) : Prop :=
  c.entry? name = d.entry? name

open AttributeSet (AgreeAt)

section Agreement

variable {c d : AttributeSet}

theorem AttributeSet.AgreeAt.get?_eq {a : Attribute} (h : AgreeAt a.name c d) :
    c.get? a = d.get? a := by
  unfold get?
  rw [h]

theorem Registration.valueIn?_congr {r : Registration} (h : AgreeAt r.name c d) :
    r.valueIn? c = r.valueIn? d := by
  unfold valueIn?
  rw [h]

end Agreement

namespace Schema

variable {α β : Type} {f : α → AttributeSet} {g : β → AttributeSet} {origin : β → α} {s : Schema}
  {request c d : AttributeSet} {xs : List α} {ys : List β}

/-- A name that is requested or in the precedence. -/
def Relevant (s : Schema) (request : AttributeSet) (name : String) : Prop :=
  (∃ e ∈ request.entries, e.name = name) ∨ ∃ a ∈ s.precedence, a.name = name

/-- The sets have the same entries under relevant names. -/
def AgreeOnRelevant (s : Schema) (request c d : AttributeSet) : Prop :=
  ∀ name, s.Relevant request name → AgreeAt name c d

theorem satisfies_congr {es : List Entry} (h : ∀ e ∈ es, AgreeAt e.name c d) :
    s.satisfies c es = s.satisfies d es := by
  induction es with
  | nil => rfl
  | cons e es ih =>
    obtain ⟨he, hes⟩ := List.forall_mem_cons.mp h
    rw [satisfies, satisfies]
    cases hr : s.registrationOf e.key with
    | error err => rfl
    | ok r =>
      -- what is looked up is registered under the requested name
      have hname : r.name = e.name := congrArg Attribute.name (registrationOf_eq_ok_iff.mp hr).2
      have hvalue : r.valueIn? c = r.valueIn? d := Registration.valueIn?_congr (hname ▸ he)
      rw [ih hes]
      show (r.valueIn? c >>= _) = (r.valueIn? d >>= _)
      rw [hvalue]

/-- **Sets that agree on the relevant names match alike.** -/
theorem AgreeOnRelevant.isMatch_eq (h : s.AgreeOnRelevant request c d) :
    s.isMatch c request = s.isMatch d request :=
  satisfies_congr fun e he => h e.name (.inl ⟨e, he, rfl⟩)

/-! ## Reductions -/

/-- `d` is `c` without some attributes, none of which is relevant. -/
structure Trims (s : Schema) (request c d : AttributeSet) : Prop where
  subset : ∀ e ∈ d.entries, e ∈ c.entries
  irrelevant : ∀ e ∈ c.entries, e ∉ d.entries → ¬ s.Relevant request e.name

theorem Trims.agreeOnRelevant (h : s.Trims request c d) : s.AgreeOnRelevant request c d := by
  intro name hname
  refine Option.ext fun e => ?_
  rw [AttributeSet.entry?_eq_some_iff, AttributeSet.entry?_eq_some_iff]
  constructor
  · rintro ⟨he, rfl⟩
    by_contra hd
    exact h.irrelevant e he (fun hmem => hd ⟨hmem, rfl⟩) hname
  · rintro ⟨he, rfl⟩
    exact ⟨h.subset e he, rfl⟩

/--
A list of candidates is reduced by deleting candidates that do not match, and by trimming the
others. `origin` tells what the candidates that are left were before.
-/
inductive Reduction (s : Schema) (request : AttributeSet) (f : α → AttributeSet)
    (g : β → AttributeSet) (origin : β → α) : List α → List β → Prop
  | nil : Reduction s request f g origin [] []
  | delete {x : α} {xs : List α} {ys : List β} (hx : s.isMatch (f x) request = .ok false)
    (h : Reduction s request f g origin xs ys) : Reduction s request f g origin (x :: xs) ys
  | trim {y : β} {xs : List α} {ys : List β} (hy : s.Trims request (f (origin y)) (g y))
    (h : Reduction s request f g origin xs ys) :
    Reduction s request f g origin (origin y :: xs) (y :: ys)

theorem Reduction.agreeOnRelevant (h : Reduction s request f g origin xs ys) :
    ∀ y ∈ ys, s.AgreeOnRelevant request (f (origin y)) (g y) := by
  induction h with
  | nil => exact fun _ hy => (by cases hy)
  | delete _ _ ih => exact ih
  | trim hy _ ih => exact List.forall_mem_cons.mpr ⟨hy.agreeOnRelevant, ih⟩

/-- **The candidates that match are the same before and after a reduction.** -/
theorem Reduction.compatible_eq (h : Reduction s request f g origin xs ys) :
    s.compatible f request xs = (s.compatible g request ys).map (List.map origin) := by
  induction h with
  | nil => rfl
  | @delete x xs ys hx _ ih =>
    rw [compatible, hx, ← ih]
    cases s.compatible f request xs <;> rfl
  | @trim y xs ys hy _ ih =>
    rw [compatible, compatible, hy.agreeOnRelevant.isMatch_eq]
    cases s.isMatch (g y) request with
    | error err => rfl
    | ok b =>
      rw [ih]
      cases s.compatible g request ys <;> cases b <;> rfl

/-! ## Rounds -/

section Rounds

variable {r : Registration} {a : Attribute} {us : List β}

theorem carriedValues_map (h : ∀ y ∈ ys, AgreeAt r.name (f (origin y)) (g y)) :
    carriedValues f r (ys.map origin) = carriedValues g r ys := by
  unfold carriedValues
  generalize (SortedBy.empty : ValueSet) = values
  induction ys generalizing values with
  | nil => rfl
  | cons y ys ih =>
    obtain ⟨hy, hys⟩ := List.forall_mem_cons.mp h
    rw [List.map_cons, List.foldlM_cons, List.foldlM_cons, Registration.valueIn?_congr hy]
    exact congrArg _ (funext fun next => ih hys next)

theorem keepCarriers_map {values : ValueSet}
    (h : ∀ y ∈ ys, AgreeAt a.name (f (origin y)) (g y)) :
    keepCarriers f a values (ys.map origin) = (keepCarriers g a values ys).map origin := by
  unfold keepCarriers
  rw [List.filter_map]
  refine congrArg (List.map origin) (List.filter_congr fun y hy => ?_)
  show ((f (origin y)).get? a).all _ = _
  rw [(h y hy).get?_eq]

/-- **A round does the same to candidates that agree on its attribute.** -/
theorem narrowBy_map (h : ∀ y ∈ ys, AgreeAt a.name (f (origin y)) (g y)) :
    s.narrowBy f request a (ys.map origin) =
      (s.narrowBy g request a ys).map (List.map origin) := by
  unfold narrowBy
  cases hr : s.registrationOf a with
  | error err => rfl
  | ok r =>
    obtain rfl : r.key = a := (registrationOf_eq_ok_iff.mp hr).2
    show (if r.preference.isTrivial then _ else _) =
      Except.map _ (if r.preference.isTrivial then _ else _)
    rw [carriedValues_map h]
    split
    · rfl
    · cases carriedValues g r ys with
      | error err => rfl
      | ok values =>
        -- the tests of the round are about values alone
        show (if values.isEmpty then _ else if _ then _ else _) =
          Except.map _ (if values.isEmpty then _ else if _ then _ else _)
        rw [keepCarriers_map h]
        split_ifs <;> rfl

theorem subset_of_narrowBy (h : s.narrowBy g request a ys = .ok us) : us ⊆ ys := by
  obtain ⟨r, hr, -⟩ := bind_eq_ok.mp h
  obtain ⟨-, rfl⟩ := (narrowBy_eq_ok_iff hr).mp h
  exact List.filter_sublist.subset

/-- **All rounds do the same to candidates that agree on the relevant names.** -/
theorem narrow_map {as : List Attribute} (has : as ⊆ s.precedence)
    (h : ∀ y ∈ ys, s.AgreeOnRelevant request (f (origin y)) (g y)) :
    s.narrow f request as (ys.map origin) =
      (s.narrow g request as ys).map (List.map origin) := by
  induction as generalizing ys with
  | nil => rfl
  | cons a as ih =>
    obtain ⟨ha, has⟩ := List.cons_subset.mp has
    rw [narrow, narrow, List.length_map,
      narrowBy_map fun y hy => h y hy a.name (.inr ⟨a, ha, rfl⟩)]
    split
    · rfl
    · cases hround : s.narrowBy g request a ys with
      | error err => rfl
      | ok us => exact ih has fun y hy => h y (subset_of_narrowBy hround hy)

end Rounds

/-! ## Selections -/

/--
**Irrelevant input does not matter.** Delete from a list of candidates some that do not match, and
from the others some attributes that are neither requested nor in the precedence. The selection then
comes out as before: what is selected comes from what was selected, in the same order, and an error
is the same error.
-/
theorem select_eq_of_reduction (h : Reduction s request f g origin xs ys) :
    s.select f xs request = (s.select g ys request).map (List.map origin) := by
  unfold select
  rw [h.compatible_eq]
  cases s.checkRequest request.entries with
  | error err => rfl
  | ok _ =>
    cases hmatching : s.compatible g request ys with
    | error err => rfl
    | ok us =>
      have hagree : ∀ y ∈ us, s.AgreeOnRelevant request (f (origin y)) (g y) := fun y hy => by
        obtain ⟨-, rfl⟩ := compatible_eq_ok_iff.mp hmatching
        exact h.agreeOnRelevant y (mem_matching.mp hy).1
      show (if (us.map origin).length ≤ 1 then _ else _) =
        Except.map _ (if us.length ≤ 1 then _ else _)
      rw [List.length_map, narrow_map (List.Subset.refl _) hagree]
      split <;> rfl

/-- A level with an attribute that nobody asks for. -/
def taggedLevel : AttributeSet := .ofList [⟨"level", .integer 17⟩, ⟨"zone", .string "eu"⟩]

theorem trims_taggedLevel : levelSchema.Trims (ofLevel 18) taggedLevel (ofLevel 17) where
  subset := by decide
  irrelevant := by
    have hzone : ¬ levelSchema.Relevant (ofLevel 18) "zone" := by
      rintro (⟨e, he, hname⟩ | ⟨a, ha, hname⟩)
      · rw [List.mem_singleton.mp he] at hname
        exact absurd hname (by decide)
      · rw [List.mem_singleton.mp ha] at hname
        exact absurd hname (by decide)
    have hnames : ∀ e ∈ taggedLevel.entries, e ∉ (ofLevel 17).entries → e.name = "zone" := by decide
    exact fun e he hne hrelevant => hzone (hnames e he hne ▸ hrelevant)

/-- The level above the request is deleted, and the zone. -/
theorem select_eq_of_reduction_taggedLevel :
    levelSchema.select Prod.snd [(taggedLevel, ofLevel 17), (ofLevel 11, ofLevel 11)] (ofLevel 18) =
        .ok [(taggedLevel, ofLevel 17)] ∧
      levelSchema.select id [taggedLevel, ofLevel 21, ofLevel 11] (ofLevel 18) =
        .ok [taggedLevel] := by
  have hkept : levelSchema.Trims (ofLevel 18) (ofLevel 11) (ofLevel 11) :=
    ⟨fun _ he => he, fun _ he hne => absurd he hne⟩
  have hreduction : Reduction levelSchema (ofLevel 18) id Prod.snd Prod.fst
      [taggedLevel, ofLevel 21, ofLevel 11]
      [(taggedLevel, ofLevel 17), (ofLevel 11, ofLevel 11)] :=
    .trim (y := (taggedLevel, ofLevel 17)) trims_taggedLevel
      (.delete rfl (.trim (y := (ofLevel 11, ofLevel 11)) hkept .nil))
  have hselect : levelSchema.select Prod.snd
      [(taggedLevel, ofLevel 17), (ofLevel 11, ofLevel 11)] (ofLevel 18) =
        .ok [(taggedLevel, ofLevel 17)] := rfl
  refine ⟨hselect, ?_⟩
  rw [select_eq_of_reduction hreduction, hselect]
  rfl

end Schema

end BuildInputs

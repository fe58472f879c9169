import BuildInputs.Proofs.Sorted
import BuildInputs.Schema
import Mathlib.Data.List.Nodup

/-!
# Which drafts can be frozen

The checks of a draft look for the first violation, so a draft without one is a draft that violates
nothing: the lemmas here say of each check when it finds nothing. Freezing then keeps what was
registered, under the names it was registered with.

* `exists_build_iff` — a draft can be frozen when it violates nothing
* `mem_registrations_of_build`, `keys_perm_of_build` — a frozen schema has what was registered
-/

namespace BuildInputs

namespace Registration

/-- A registration passes unless its type has no order and one of its rules asks for it. -/
theorem orderingProblem?_eq_none_iff {r : Registration} : r.orderingProblem? = none ↔
    (r.key.type = .boolean →
      r.compatibility.needsOrdering = false ∧ r.preference.needsOrdering = false) := by
  have hordered : r.key.type.isOrdered = false ↔ r.key.type = .boolean := by
    cases r.key.type <;> simp [ValueType.isOrdered]
  unfold orderingProblem?
  rw [← hordered]
  cases r.key.type.isOrdered <;> cases r.compatibility.needsOrdering <;>
    cases r.preference.needsOrdering <;> simp

end Registration

namespace SchemaDraft

variable {d : SchemaDraft} {s : Schema} {r : Registration} {rs : List Registration}
  {seen : List String}

theorem registrationProblem?_eq_none_iff : registrationProblem? seen rs = none ↔
    (∀ r ∈ rs, r.orderingProblem? = none) ∧ (rs.map Registration.name).Nodup ∧
      ∀ r ∈ rs, r.name ∉ seen := by
  refine ⟨registrationProblem?_eq_none, ?_⟩
  induction rs generalizing seen with
  | nil => exact fun _ => rfl
  | cons r rs ih =>
    rintro ⟨hordered, hdistinct, hseen⟩
    obtain ⟨hr, hordered⟩ := List.forall_mem_cons.mp hordered
    obtain ⟨hnew, hdistinct⟩ := List.nodup_cons.mp hdistinct
    obtain ⟨hrseen, hseen⟩ := List.forall_mem_cons.mp hseen
    rw [registrationProblem?, hr]
    refine (if_neg hrseen).trans (ih ⟨hordered, hdistinct, fun r' hr' hmem => ?_⟩)
    rcases List.mem_cons.mp hmem with heq | hmem
    · exact hnew (heq ▸ List.mem_map_of_mem hr')
    · exact hseen r' hr' hmem

theorem precedenceProblem?_eq_none_iff {as : List Attribute} :
    precedenceProblem? rs seen as = none ↔ (∀ a ∈ as, ∃ r ∈ rs, r.key = a) ∧
      (as.map Attribute.name).Nodup ∧ ∀ a ∈ as, a.name ∉ seen := by
  refine ⟨precedenceProblem?_eq_none, ?_⟩
  induction as generalizing seen with
  | nil => exact fun _ => rfl
  | cons a as ih =>
    rintro ⟨hregistered, hdistinct, hseen⟩
    obtain ⟨⟨r, hr, hkey⟩, hregistered⟩ := List.forall_mem_cons.mp hregistered
    obtain ⟨hnew, hdistinct⟩ := List.nodup_cons.mp hdistinct
    obtain ⟨haseen, hseen⟩ := List.forall_mem_cons.mp hseen
    have hknown : ¬ (rs.all fun r => r.key ≠ a) = true := fun hall => by
      simpa [hkey] using List.all_eq_true.mp hall r hr
    rw [precedenceProblem?, if_neg hknown, if_neg haseen]
    refine ih ⟨hregistered, hdistinct, fun a' ha' hmem => ?_⟩
    rcases List.mem_cons.mp hmem with heq | hmem
    · exact hnew (heq ▸ List.mem_map_of_mem ha')
    · exact hseen a' ha' hmem

theorem problem?_eq_none_iff : d.problem? = none ↔
    (∀ r ∈ d.registrations, r.orderingProblem? = none) ∧
      (d.registrations.map Registration.name).Nodup ∧
      ∃ as, d.precedence = some as ∧ (∀ a ∈ as, ∃ r ∈ d.registrations, r.key = a) ∧
        (as.map Attribute.name).Nodup := by
  refine ⟨problem?_eq_none, ?_⟩
  rintro ⟨hordered, hdistinct, as, has, hregistered, hnodup⟩
  have hr : registrationProblem? [] d.registrations = none :=
    registrationProblem?_eq_none_iff.mpr ⟨hordered, hdistinct, fun _ _ => List.not_mem_nil⟩
  rw [problem?, hr, has]
  exact precedenceProblem?_eq_none_iff.mpr ⟨hregistered, hnodup, fun _ _ => List.not_mem_nil⟩

theorem build_eq_ok_iff : d.build = .ok s ↔ ∃ h : d.problem? = none, d.freeze h = s := by
  unfold build
  split
  · next e he => exact iff_of_false (fun h => (by cases h)) fun ⟨h, _⟩ => (by cases he ▸ h)
  · next h => exact ⟨fun hs => ⟨h, Except.ok.inj hs⟩, fun ⟨_, hs⟩ => congrArg Except.ok hs⟩

/-- **A draft can be frozen when it violates nothing.** -/
theorem exists_build_iff : (∃ s, d.build = .ok s) ↔ d.problem? = none := by
  simp only [build_eq_ok_iff]
  exact ⟨fun ⟨_, h, _⟩ => h, fun h => ⟨_, h, rfl⟩⟩

/-- **What is registered stays registered**, and nothing else is. -/
theorem mem_registrations_of_build (h : d.build = .ok s) :
    r ∈ s.registrations.toList ↔ r ∈ d.registrations := by
  obtain ⟨hnone, rfl⟩ := build_eq_ok_iff.mp h
  exact ⟨SortedBy.mem_of_mem_ofList, SortedBy.mem_ofList (problem?_eq_none hnone).2.1⟩

theorem precedence_of_build (h : d.build = .ok s) : d.precedence = some s.precedence := by
  obtain ⟨hnone, rfl⟩ := build_eq_ok_iff.mp h
  obtain ⟨-, -, as, has, -⟩ := problem?_eq_none hnone
  show d.precedence = some (d.precedence.getD [])
  rw [has]
  rfl

theorem keys_perm_of_build (h : d.build = .ok s) :
    s.keys.Perm (d.registrations.map Registration.key) := by
  obtain ⟨hnone, -⟩ := build_eq_ok_iff.mp h
  have hdistinct : d.registrations.Nodup := (problem?_eq_none hnone).2.1.of_map
  exact ((List.perm_ext_iff_of_nodup s.registrations.nodup_toList hdistinct).mpr
    fun _ => mem_registrations_of_build h).map Registration.key

end SchemaDraft

end BuildInputs

import BuildInputs.Proofs.Matching.Candidates
import BuildInputs.Proofs.Matching.Explanation
import BuildInputs.Selection

/-!
# Outcomes of a selection

What matching leaves of the accepted variants decides how a selection comes out (`Outcome`): one of
them is selected, none or several are a failure, and so is an error. What a failure reports agrees
with how the variants fared. The reports are made afresh, by the explanation and not by the matcher,
so the agreement is that of `exists_isMatch_eq_false` and `isMatch_eq_true`.
-/

namespace BuildInputs

namespace Schema

/-- The variants of accepted components, in their order. -/
def eligible (filter : ComponentFilter) (variants : List Variant) : List Variant :=
  variants.filter fun v => filter.accepts v.component

/-! ## Reports -/

/-- The variants are listed in their order, each with what it has for every requested attribute. -/
structure ReportsOn (requested : AttributeSet) (vs : List Variant) (reports : List VariantReport) :
    Prop where
  listed : reports.map (fun r => (r.id, r.attributes)) =
    vs.map fun v => (⟨v.component, v.name⟩, v.attributes)
  described : ∀ r ∈ reports, r.reports.map MatchReport.requested = requested.entries
  found : ∀ r ∈ reports, ∀ d ∈ r.reports, d.found = r.attributes.entry? d.requested.name

variable {s : Schema} {vs : List Variant} {requested : AttributeSet}

theorem reportsOn_map_reportVariant :
    ReportsOn requested vs (vs.map (s.reportVariant requested)) where
  listed := by
    rw [List.map_map]
    rfl
  described r hr := by
    obtain ⟨v, -, rfl⟩ := List.mem_map.mp hr
    exact map_requested_explain
  found r hr d hd := by
    obtain ⟨v, -, rfl⟩ := List.mem_map.mp hr
    obtain ⟨e, -, rfl⟩ := List.mem_map.mp hd
    rfl

/-- Variants that do not match are reported with a fault each. -/
theorem exists_fault_of_mem_reports
    (h : ∀ v ∈ vs, s.isMatch v.attributes requested = .ok false) :
    ∀ r ∈ vs.map (s.reportVariant requested), ∃ d ∈ r.reports, d.isMatch = false :=
  List.forall_mem_map.mpr fun v hv => exists_isMatch_eq_false (h v hv)

/-- Variants that match are reported without a fault. -/
theorem no_fault_of_mem_reports (h : ∀ v ∈ vs, s.isMatch v.attributes requested = .ok true) :
    ∀ r ∈ vs.map (s.reportVariant requested), ∀ d ∈ r.reports, d.isMatch = true :=
  List.forall_mem_map.mpr fun v hv => isMatch_eq_true (h v hv)

/-! ## Outcomes -/

/--
How a selection among the accepted variants comes out, given the result of matching them.
-/
inductive Outcome (s : Schema) (requested : AttributeSet) (accepted : List Variant) :
    Except MatchError (List Variant) → Except SelectionError VariantId → Prop
  /-- Exactly one variant is left. -/
  | selected {v : Variant} (hv : v ∈ accepted) :
    Outcome s requested accepted (.ok [v]) (.ok ⟨v.component, v.name⟩)
  /-- No accepted variant is compatible. All are reported, each with a fault. -/
  | noMatch {reports : List VariantReport}
    (hnone : ∀ v ∈ accepted, s.isMatch v.attributes requested = .ok false)
    (hreports : ReportsOn requested accepted reports)
    (hfault : ∀ r ∈ reports, ∃ d ∈ r.reports, d.isMatch = false) :
    Outcome s requested accepted (.ok []) (.error (.noMatch requested reports))
  /-- Several variants are left. They and no others are reported, without a fault. -/
  | ambiguous {vs : List Variant} {reports : List VariantReport} (hseveral : 2 ≤ vs.length)
    (horder : vs.Sublist accepted) (hreports : ReportsOn requested vs reports)
    (hfault : ∀ r ∈ reports, ∀ d ∈ r.reports, d.isMatch = true) :
    Outcome s requested accepted (.ok vs) (.error (.ambiguous requested reports))
  /-- Matching fails, with this error. -/
  | mismatch (e : MatchError) : Outcome s requested accepted (.error e) (.error (.mismatch e))

theorem selectVariant_eq (s : Schema) (filter : ComponentFilter) (variants : List Variant)
    (requested : AttributeSet) : s.selectVariant filter variants requested =
      match s.select Variant.attributes (eligible filter variants) requested with
      | .error e => .error (.mismatch e)
      | .ok [] => .error (.noMatch requested
          ((eligible filter variants).map (s.reportVariant requested)))
      | .ok [v] => .ok ⟨v.component, v.name⟩
      | .ok vs => .error (.ambiguous requested (vs.map (s.reportVariant requested))) := by
  unfold selectVariant eligible
  dsimp only
  cases s.select Variant.attributes (variants.filter fun v => filter.accepts v.component)
    requested with
  | error e => rfl
  | ok vs =>
    match vs with
    | [] | [_] | _ :: _ :: _ => rfl

theorem selectVariant_eq_mismatch_iff {filter : ComponentFilter} {variants : List Variant}
    {e : MatchError} : s.selectVariant filter variants requested = .error (.mismatch e) ↔
      s.select Variant.attributes (eligible filter variants) requested = .error e := by
  rw [selectVariant_eq]
  split
  · next e' h => simp [h]
  all_goals next h => simp [h]

/--
**The outcome of a selection is decided by matching, and its reports agree with it.** A variant is
selected only when it alone is left of the accepted ones; no match is reported only when none of
them is compatible, ambiguity only when several are left; and an error is that of matching.
-/
theorem selectVariant_outcome (s : Schema) (filter : ComponentFilter) (variants : List Variant)
    (requested : AttributeSet) :
    Outcome s requested (eligible filter variants)
      (s.select Variant.attributes (eligible filter variants) requested)
      (s.selectVariant filter variants requested) := by
  rw [selectVariant_eq]
  cases hselect : s.select Variant.attributes (eligible filter variants) requested with
  | error e => exact .mismatch e
  | ok vs =>
    have hmatching := select_sublist_matching hselect
    have hmatch : ∀ v ∈ vs, s.isMatch v.attributes requested = .ok true :=
      fun v hv => (mem_matching.mp (hmatching.subset hv)).2
    have horder : vs.Sublist (eligible filter variants) :=
      hmatching.trans List.filter_sublist
    rcases vs with - | ⟨v, - | ⟨w, vs⟩⟩
    · have hnone := isMatch_of_select_eq_nil hselect
      exact .noMatch hnone reportsOn_map_reportVariant (exists_fault_of_mem_reports hnone)
    · exact .selected (horder.subset List.mem_cons_self)
    · exact .ambiguous (Nat.le_add_left 2 vs.length) horder reportsOn_map_reportVariant
        (no_fault_of_mem_reports hmatch)

end Schema

end BuildInputs

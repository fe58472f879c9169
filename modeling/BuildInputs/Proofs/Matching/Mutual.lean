import BuildInputs.Proofs.Matching.Errors
import BuildInputs.Proofs.Matching.Explanation
import BuildInputs.Proofs.Matching.Relevance

/-!
# Mutual compatibility is symmetric

Mutual compatibility goes through the entries of the first set and stops at the first one that does
not agree with the second set, or that contradicts the schema. Exchanging the sets gives the same
verdict:

1. Under one name, both directions look at the same two values (`agreesWith_sameVerdict`). An error
   may name another of the two types, but it is about the same attribute.
2. Entries that the other set lacks are passed over (`allAgree_filter`), and the entries that the
   sets share come in the same order of names (`map_name_shared`), so both walks stop at the same
   name (`allAgree_sameVerdict`).

A set that matches a request is compatible with it (`mutuallyCompatible_of_isMatch`): the matcher
asks for one of the two directions that mutual compatibility would be content with.
-/

namespace BuildInputs.Schema

variable {s : Schema} {c d : AttributeSet} {e e' : Entry} {es es' : List Entry} {r : Registration}

/-- Two verdicts give the same answer, or are errors about the same attribute. -/
inductive SameVerdict : Except MatchError Bool → Except MatchError Bool → Prop
  | answer (b : Bool) : SameVerdict (.ok b) (.ok b)
  | mismatch (key : Attribute) (found found' : ValueType) :
    SameVerdict (.error (.typeMismatch key found)) (.error (.typeMismatch key found'))

theorem SameVerdict.eq_ok {b : Bool} {x : Except MatchError Bool} (h : SameVerdict (.ok b) x) :
    x = .ok b := by
  cases h
  rfl

/-- The same verdicts at one entry and behind it make the same verdict on both. -/
theorem SameVerdict.bind {x x' y y' : Except MatchError Bool} (h : SameVerdict x x')
    (hrest : SameVerdict y y') :
    SameVerdict (x >>= fun ok => if ok then y else .ok false)
      (x' >>= fun ok => if ok then y' else .ok false) := by
  cases h with
  | mismatch key found found' => exact .mismatch key found found'
  | answer b =>
    cases b with
    | true => exact hrest
    | false => exact .answer false

/-! ## One entry -/

theorem agreesWith_of_entry?_eq_none (h : d.entry? e.name = none) :
    s.agreesWith c d e = .ok true := by
  unfold agreesWith
  rw [h]
  rfl

theorem agreesWith_of_find?_eq_none (he' : d.entry? e.name = some e')
    (hfind : s.find? e.name = none) : s.agreesWith c d e = .ok (decide (e = e')) := by
  unfold agreesWith
  rw [he', hfind]
  rfl

/-- Under a registered name both types are looked at, that of the first set first. -/
theorem agreesWith_of_find?_eq_some (he : c.entry? e.name = some e)
    (he' : d.entry? e.name = some e') (hfind : s.find? e.name = some r) :
    s.agreesWith c d e =
      r.checkType e.value.type >>= fun _ => r.checkType e'.value.type >>= fun _ =>
        .ok (r.compatibility.accepts e.value e'.value ||
          r.compatibility.accepts e'.value e.value) := by
  have hname : r.name = e.name := (SortedBy.find?_eq_some_iff.mp hfind).2
  have hvalue {set : AttributeSet} {f : Entry} (hf : set.entry? e.name = some f) :
      r.valueIn? set = r.checkType f.value.type >>= fun _ => .ok (some f.value) := by
    unfold Registration.valueIn?
    rw [hname, hf]
    rfl
  unfold agreesWith
  rw [he', hfind]
  show (r.valueIn? c >>= fun _ => r.valueIn? d >>= fun _ => _) = _
  rw [hvalue he, hvalue he']
  cases r.checkType e.value.type <;> cases r.checkType e'.value.type <;> rfl

/-- **Two entries of one name agree in both directions or in none.** -/
theorem agreesWith_sameVerdict (he : e ∈ c.entries) (he' : e' ∈ d.entries)
    (hname : e.name = e'.name) : SameVerdict (s.agreesWith c d e) (s.agreesWith d c e') := by
  have hc : c.entry? e.name = some e := AttributeSet.entry?_eq_some_iff.mpr ⟨he, rfl⟩
  have hd : d.entry? e.name = some e' := AttributeSet.entry?_eq_some_iff.mpr ⟨he', hname.symm⟩
  cases hfind : s.find? e.name with
  | none =>
    rw [agreesWith_of_find?_eq_none hd hfind,
      agreesWith_of_find?_eq_none (hname ▸ hc) (hname ▸ hfind), decide_eq_decide.mpr eq_comm]
    exact .answer _
  | some r =>
    rw [agreesWith_of_find?_eq_some hc hd hfind,
      agreesWith_of_find?_eq_some (hname ▸ hd) (hname ▸ hc) (hname ▸ hfind), Bool.or_comm]
    unfold Registration.checkType
    -- the type that is looked at first is the first to be wrong
    by_cases htype : r.key.type = e.value.type
    · by_cases htype' : r.key.type = e'.value.type
      · rw [if_pos htype, if_pos htype']
        exact .answer _
      · rw [if_pos htype, if_neg htype']
        exact .mismatch ..
    · by_cases htype' : r.key.type = e'.value.type
      · rw [if_neg htype, if_pos htype']
        exact .mismatch ..
      · rw [if_neg htype, if_neg htype']
        exact .mismatch ..

/-! ## All entries -/

theorem allAgree_cons : s.allAgree c d (e :: es) =
    s.agreesWith c d e >>= fun ok => if ok then s.allAgree c d es else .ok false := rfl

/-- **Entries that the other set lacks are passed over.** -/
theorem allAgree_filter :
    s.allAgree c d (es.filter fun e => d.hasName e.name) = s.allAgree c d es := by
  induction es with
  | nil => rfl
  | cons e es ih =>
    rw [List.filter_cons, allAgree_cons]
    cases hother : d.entry? e.name with
    | none =>
      have hlacks : ¬ d.hasName e.name = true := by simp [AttributeSet.hasName, hother]
      rw [if_neg hlacks, agreesWith_of_entry?_eq_none hother]
      exact ih
    | some e' =>
      have hshares : d.hasName e.name = true := by simp [AttributeSet.hasName, hother]
      rw [if_pos hshares, allAgree_cons, ih]

/-- The entries of the first set whose names the second one has. -/
def shared (c d : AttributeSet) : AttributeSet := c.filter fun e => d.hasName e.name

theorem mem_map_name_shared {name : String} : name ∈ (shared c d).entries.map Entry.name ↔
    name ∈ c.entries.map Entry.name ∧ name ∈ d.entries.map Entry.name := by
  have hhas (name : String) : d.hasName name = true ↔ name ∈ d.entries.map Entry.name := by
    unfold AttributeSet.hasName
    rw [Option.isSome_iff_exists, List.mem_map]
    exact exists_congr fun e => AttributeSet.entry?_eq_some_iff
  rw [← hhas, List.mem_map, List.mem_map]
  constructor
  · rintro ⟨e, he, rfl⟩
    obtain ⟨hmem, hname⟩ := SortedBy.mem_filter.mp he
    exact ⟨⟨e, hmem, rfl⟩, hname⟩
  · rintro ⟨⟨e, hmem, rfl⟩, hname⟩
    exact ⟨e, SortedBy.mem_filter.mpr ⟨hmem, hname⟩, rfl⟩

/-- **Both sets have the shared names in the same order.** -/
theorem map_name_shared : (shared c d).entries.map Entry.name =
    (shared d c).entries.map Entry.name :=
  SortedBy.map_key_eq_of_mem_iff fun _ =>
    mem_map_name_shared.trans (and_comm.trans mem_map_name_shared.symm)

/-- **Walks over entries of the same names come to the same verdict.** -/
theorem allAgree_sameVerdict (hes : ∀ e ∈ es, e ∈ c.entries) (hes' : ∀ e ∈ es', e ∈ d.entries)
    (hnames : es.map Entry.name = es'.map Entry.name) :
    SameVerdict (s.allAgree c d es) (s.allAgree d c es') := by
  induction es generalizing es' with
  | nil =>
    obtain rfl : es' = [] := List.map_eq_nil_iff.mp hnames.symm
    exact .answer true
  | cons e es ih =>
    cases es' with
    | nil => cases hnames
    | cons e' es' =>
      obtain ⟨he, hes⟩ := List.forall_mem_cons.mp hes
      obtain ⟨he', hes'⟩ := List.forall_mem_cons.mp hes'
      obtain ⟨hname, hnames⟩ := List.cons.inj hnames
      rw [allAgree_cons, allAgree_cons]
      exact (agreesWith_sameVerdict he he' hname).bind (ih hes hes' hnames)

theorem mutuallyCompatible_eq_shared :
    s.mutuallyCompatible c d = s.allAgree c d (shared c d).entries :=
  allAgree_filter.symm

/-- **Sets that are exchanged get the same verdict.** -/
theorem mutuallyCompatible_sameVerdict :
    SameVerdict (s.mutuallyCompatible c d) (s.mutuallyCompatible d c) := by
  rw [mutuallyCompatible_eq_shared, mutuallyCompatible_eq_shared]
  exact allAgree_sameVerdict (fun _ he => (SortedBy.mem_filter.mp he).1)
    (fun _ he => (SortedBy.mem_filter.mp he).1) map_name_shared

/-! ## Matching -/

theorem allAgree_eq_ok_true (h : ∀ e ∈ es, s.agreesWith c d e = .ok true) :
    s.allAgree c d es = .ok true := by
  induction es with
  | nil => rfl
  | cons e es ih =>
    obtain ⟨he, hes⟩ := List.forall_mem_cons.mp h
    rw [allAgree_cons, he]
    exact ih hes

/-- **A set that matches a request is compatible with it.** -/
theorem mutuallyCompatible_of_isMatch (h : s.isMatch c d = .ok true) :
    s.mutuallyCompatible c d = .ok true := by
  refine allAgree_eq_ok_true fun e he => ?_
  cases hother : d.entry? e.name with
  | none => exact agreesWith_of_entry?_eq_none hother
  | some e' =>
    obtain ⟨he', hname⟩ := AttributeSet.entry?_eq_some_iff.mp hother
    obtain ⟨r, hr, htype, haccepts⟩ := accepts_of_isMatch h he' he hname.symm
    obtain ⟨hmem, hkey⟩ := registrationOf_eq_ok_iff.mp hr
    have hfind : s.find? e.name = some r :=
      SortedBy.find?_eq_some_iff.mpr ⟨hmem, (congrArg Attribute.name hkey).trans hname⟩
    have htype' : r.key.type = e'.value.type := congrArg Attribute.type hkey
    rw [agreesWith_of_find?_eq_some (AttributeSet.entry?_eq_some_iff.mpr ⟨he, rfl⟩) hother hfind,
      Registration.checkType_eq_ok.mpr htype.symm, Registration.checkType_eq_ok.mpr htype',
      haccepts]
    rfl

/--
**Mutual compatibility is symmetric, and implied by matching.** Exchanging the two sets gives the
same answer, or an error about the same attribute. If one set matches the other as a request, the
answer is yes in both directions.
-/
theorem mutuallyCompatible_symm (s : Schema) (c d : AttributeSet) :
    SameVerdict (s.mutuallyCompatible c d) (s.mutuallyCompatible d c) ∧
      (s.isMatch c d = .ok true →
        s.mutuallyCompatible c d = .ok true ∧ s.mutuallyCompatible d c = .ok true) := by
  have hsame : SameVerdict (s.mutuallyCompatible c d) (s.mutuallyCompatible d c) :=
    mutuallyCompatible_sameVerdict
  refine ⟨hsame, fun hmatch => ?_⟩
  have hanswer := mutuallyCompatible_of_isMatch hmatch
  rw [hanswer] at hsame
  exact ⟨hanswer, hsame.eq_ok⟩

/-- A level with a zone matches a request for a higher level, but is none to be matched by it. -/
theorem mutuallyCompatible_symm_taggedLevel :
    levelSchema.isMatch taggedLevel (ofLevel 18) = .ok true ∧
      levelSchema.mutuallyCompatible taggedLevel (ofLevel 18) = .ok true ∧
      levelSchema.mutuallyCompatible (ofLevel 18) taggedLevel = .ok true :=
  ⟨rfl, (mutuallyCompatible_symm levelSchema taggedLevel (ofLevel 18)).2 rfl⟩

/-- Where both sets have a wrong type, each direction names that of its first set. -/
example :
    let text : AttributeSet := .singleton ⟨"level", .string "eleven"⟩
    let switch : AttributeSet := .singleton ⟨"level", .boolean true⟩
    levelSchema.mutuallyCompatible text switch =
        .error (.typeMismatch ⟨"level", .integer⟩ .string) ∧
      levelSchema.mutuallyCompatible switch text =
        .error (.typeMismatch ⟨"level", .integer⟩ .boolean) :=
  ⟨rfl, rfl⟩

end BuildInputs.Schema

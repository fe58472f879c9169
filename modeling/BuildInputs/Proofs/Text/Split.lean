import BuildInputs.Text.Split

/-!
# Parts of a text

Splitting goes through a text from the end. It yields the same parts as `List.splitOn`, so what the
library knows of that function holds of it: a separator cuts a text in two, and joining the parts
gives the text back. So a text has certain parts exactly when it is these parts, joined, and none of
them holds a separator (`splitAll_eq_iff`); likewise for the cut at the first separator
(`cutFirst?_eq_some_iff`).
-/

namespace BuildInputs.Text

variable {sep : Char} {part cs ds : List Char}

/-! ## The first separator -/

theorem cutFirst?_append (h : sep ∉ cs) : cutFirst? sep (cs ++ sep :: ds) = some (cs, ds) := by
  induction cs with
  | nil => exact if_pos rfl
  | cons c cs ih =>
    obtain ⟨hne, hrest⟩ := List.ne_and_not_mem_of_not_mem_cons h
    rw [List.cons_append, cutFirst?, if_neg (Ne.symm hne), ih hrest]
    rfl

/-- **A text is cut at the first separator.** -/
theorem cutFirst?_eq_some_iff {before after : List Char} :
    cutFirst? sep cs = some (before, after) ↔ cs = before ++ sep :: after ∧ sep ∉ before := by
  constructor
  · intro h
    induction cs generalizing before with
    | nil => cases h
    | cons c cs ih =>
      rw [cutFirst?] at h
      split at h
      · next hc => cases h; exact ⟨hc ▸ rfl, List.not_mem_nil⟩
      · next hc =>
        obtain ⟨⟨front, back⟩, hcut, hpair⟩ := Option.map_eq_some_iff.mp h
        cases hpair
        obtain ⟨rfl, hfront⟩ := ih hcut
        exact ⟨rfl, List.not_mem_cons_of_ne_of_not_mem (Ne.symm hc) hfront⟩
  · rintro ⟨rfl, h⟩
    exact cutFirst?_append h

/-! ## All separators -/

theorem consFirst_eq_modifyHead {c : Char} {parts : List (List Char)} (h : parts ≠ []) :
    consFirst c parts = parts.modifyHead (c :: ·) := by
  cases parts with
  | nil => exact absurd rfl h
  | cons first parts => rfl

/-- **Splitting yields the parts between the separators.** -/
theorem splitAll_eq_splitOn (sep : Char) (cs : List Char) : splitAll sep cs = cs.splitOn sep := by
  unfold List.splitOn
  induction cs with
  | nil => rfl
  | cons c cs ih =>
    rw [splitAll, ih, List.splitOnP_cons_eq_if_modifyHead]
    by_cases hc : c = sep
    · simp [hc]
    · rw [if_neg hc, if_neg (by simpa using hc),
        consFirst_eq_modifyHead (List.splitOnP_ne_nil _ cs)]

/-- **A separator cuts a text in two.** -/
theorem splitAll_append_cons (cs ds : List Char) :
    splitAll sep (cs ++ sep :: ds) = splitAll sep cs ++ splitAll sep ds := by
  simp only [splitAll_eq_splitOn, List.splitOn]
  exact List.splitOnP_append_cons cs ds (by simp)

/-- A text without separators is its only part. -/
theorem splitAll_of_notMem (h : sep ∉ cs) : splitAll sep cs = [cs] := by
  induction cs with
  | nil => rfl
  | cons c cs ih =>
    obtain ⟨hne, hrest⟩ := List.ne_and_not_mem_of_not_mem_cons h
    rw [splitAll, if_neg (Ne.symm hne), ih hrest, consFirst]

/-- Parts without separators are read back from their joined text. -/
theorem splitAll_intercalate {parts : List (List Char)} (hne : parts ≠ [])
    (h : ∀ part ∈ parts, sep ∉ part) : splitAll sep ([sep].intercalate parts) = parts := by
  rw [splitAll_eq_splitOn]
  exact List.splitOn_intercalate sep h hne

theorem mem_consFirst {c : Char} {parts : List (List Char)} (h : part ∈ consFirst c parts) :
    part ∈ parts ∨ ∃ rest, part = c :: rest ∧ (rest = [] ∨ rest ∈ parts) := by
  cases parts with
  | nil => exact Or.inr ⟨[], List.mem_singleton.mp h, Or.inl rfl⟩
  | cons first parts =>
    rcases List.mem_cons.mp h with rfl | h
    · exact Or.inr ⟨first, rfl, Or.inr List.mem_cons_self⟩
    · exact Or.inl (List.mem_cons_of_mem _ h)

/-- No part holds a separator. -/
theorem sep_notMem_of_mem_splitAll (h : part ∈ splitAll sep cs) : sep ∉ part := by
  induction cs generalizing part with
  | nil => simp [List.mem_singleton.mp h]
  | cons c cs ih =>
    rw [splitAll] at h
    split at h
    · rcases List.mem_cons.mp h with rfl | h
      · exact List.not_mem_nil
      · exact ih h
    · next hc =>
      rcases mem_consFirst h with h | ⟨rest, rfl, rfl | h⟩
      · exact ih h
      · simpa using Ne.symm hc
      · exact List.not_mem_cons_of_ne_of_not_mem (Ne.symm hc) (ih h)

/-- **The parts of a text are what it is joined of**, if they hold no separator. -/
theorem splitAll_eq_iff {parts : List (List Char)} (hne : parts ≠ []) :
    splitAll sep cs = parts ↔ cs = [sep].intercalate parts ∧ ∀ part ∈ parts, sep ∉ part := by
  constructor
  · rintro rfl
    refine ⟨?_, fun part hpart => sep_notMem_of_mem_splitAll hpart⟩
    rw [splitAll_eq_splitOn]
    exact (List.intercalate_splitOn sep).symm
  · rintro ⟨rfl, hparts⟩
    exact splitAll_intercalate hne hparts

/-- A part between separators is made of characters of the text, in their order. -/
theorem sublist_of_mem_splitAll (h : part ∈ splitAll sep cs) : part.Sublist cs := by
  induction cs generalizing part with
  | nil => exact List.mem_singleton.mp h ▸ List.Sublist.slnil
  | cons c cs ih =>
    rw [splitAll] at h
    split at h
    · rcases List.mem_cons.mp h with rfl | h
      · exact List.nil_sublist _
      · exact (ih h).cons c
    · rcases mem_consFirst h with h | ⟨rest, rfl, rfl | h⟩
      · exact (ih h).cons c
      · exact List.singleton_sublist.mpr List.mem_cons_self
      · exact (ih h).cons_cons c

/-! ## The longest run of certain characters -/

/-- The text does not go on with such a character. -/
def Stops (p : Char → Bool) (cs : List Char) : Prop := ∀ c ∈ cs.head?, p c = false

variable {p : Char → Bool}

@[simp] theorem stops_nil : Stops p [] := fun _ h => (by cases h)

@[simp] theorem stops_cons {c : Char} : Stops p (c :: cs) ↔ p c = false :=
  ⟨fun h => h c rfl, fun h _ hd => Option.some.inj hd ▸ h⟩

theorem Stops.append (hcs : Stops p cs) (hds : Stops p ds) : Stops p (cs ++ ds) := by
  cases cs with
  | nil => exact hds
  | cons c cs => exact stops_cons.mpr (stops_cons.mp hcs)

theorem stops_dropWhile (cs : List Char) : Stops p (cs.dropWhile p) := by
  intro c hc
  have h := List.head?_dropWhile_not p cs
  rw [Option.mem_def.mp hc] at h
  exact h

theorem takeWhile_append (hcs : cs.all p = true) (hds : Stops p ds) :
    (cs ++ ds).takeWhile p = cs := by
  rw [List.takeWhile_append_of_pos (List.all_eq_true.mp hcs)]
  cases ds with
  | nil => simp
  | cons d ds => simp [stops_cons.mp hds]

theorem dropWhile_append (hcs : cs.all p = true) (hds : Stops p ds) :
    (cs ++ ds).dropWhile p = ds := by
  rw [List.dropWhile_append_of_pos (List.all_eq_true.mp hcs)]
  cases ds with
  | nil => rfl
  | cons d ds => simp [stops_cons.mp hds]

end BuildInputs.Text

import BuildInputs.ClassPath
import BuildInputs.Proofs.Text.Split

/-!
# Class paths are read back from their text

The text of a class path joins its entries with colons, and reading splits at every colon and skips
what is empty. So reading undoes writing for the class paths whose entries can be elements of such a
list (`parse_text_iff`), and writing undoes reading up to the empty elements of the list
(`text_parse`). Since a colon cuts a list in two, the class path of two joined lists is that of the
first list followed by that of the second (`parse_append`).
-/

namespace BuildInputs.ClassPath

/-- An entry that a list with colons can have as an element which is not skipped. -/
structure Listable (p : Path) : Prop where
  ne_empty : p.text ≠ ""
  noColon : ':' ∉ p.text.toList

/-- The elements of a list with colons, the empty ones included. -/
def elements (list : String) : List String := (list.toList.splitOn ':').map String.ofList

/-- A list with colons from which the empty elements are removed. -/
def withoutEmptyElements (list : String) : String :=
  String.intercalate ":" ((elements list).filter (· ≠ ""))

variable {c : ClassPath} {p : Path} {s t : String}

/-! ## Reading -/

theorem map_text_parse : (parse s).entries.map Path.text = (elements s).filter (· ≠ "") := by
  have hempty (part : List Char) : (!part.isEmpty) = decide (String.ofList part ≠ "") := by
    cases part <;> simp
  unfold parse elements
  rw [Text.splitAll_eq_splitOn, List.map_map, List.filter_map]
  simp only [hempty, Function.comp_def]

/-- **Only listable entries are read.** -/
theorem listable_of_mem_parse (h : p ∈ (parse s).entries) : Listable p := by
  obtain ⟨part, hpart, rfl⟩ := List.mem_map.mp h
  obtain ⟨hmem, hne⟩ := List.mem_filter.mp hpart
  constructor
  · show String.ofList part ≠ ""
    simpa using hne
  · show ':' ∉ (String.ofList part).toList
    rw [String.toList_ofList]
    exact Text.sep_notMem_of_mem_splitAll hmem

/-- **Lists are read one after the other.** -/
theorem parse_append : parse (s ++ ":" ++ t) = (parse s).append (parse t) := by
  have hlist : (s ++ ":" ++ t).toList = s.toList ++ ':' :: t.toList := by simp
  unfold parse append
  rw [hlist, Text.splitAll_append_cons, List.filter_append, List.map_append]

/-! ## Writing -/

theorem text_of_noColon (h : ∀ p ∈ c.entries, ':' ∉ p.text.toList) :
    c.text = String.intercalate ":" (c.entries.map Path.text) := by
  have hnone : ((c.entries.map Path.text).any fun t => t.toList.contains ':') = false := by
    simpa using h
  unfold text
  simp only [hnone]
  rfl

/-- **Writing keeps the elements that are not empty.** -/
theorem text_parse : (parse s).text = withoutEmptyElements s := by
  rw [text_of_noColon fun p hp => (listable_of_mem_parse hp).noColon, map_text_parse]
  rfl

theorem parse_text (h : ∀ p ∈ c.entries, Listable p) : parse c.text = c := by
  obtain ⟨ps⟩ := c
  have hjoined : (text ⟨ps⟩).toList = [':'].intercalate (ps.map fun p => p.text.toList) := by
    rw [text_of_noColon fun p hp => (h p hp).noColon, String.toList_intercalate, List.map_map]
    rfl
  cases ps with
  | nil => rfl
  | cons p ps =>
    have hparts : Text.splitAll ':' (text ⟨p :: ps⟩).toList =
        (p :: ps).map fun p => p.text.toList := by
      rw [hjoined]
      refine Text.splitAll_intercalate (by simp) fun part hpart => ?_
      obtain ⟨q, hq, rfl⟩ := List.mem_map.mp hpart
      exact (h q hq).noColon
    have hkept : ((p :: ps).map fun p => p.text.toList).filter (!·.isEmpty) =
        (p :: ps).map fun p => p.text.toList := by
      refine List.filter_eq_self.mpr fun part hpart => ?_
      obtain ⟨q, hq, rfl⟩ := List.mem_map.mp hpart
      simpa using (h q hq).ne_empty
    unfold parse
    rw [hparts, hkept, List.map_map]
    simp [Function.comp_def]

/-- **A class path is read back from its text when its entries are listable**, and only then. -/
theorem parse_text_iff : parse c.text = c ↔ ∀ p ∈ c.entries, Listable p := by
  constructor
  · intro h p hp
    rw [← h] at hp
    exact listable_of_mem_parse hp
  · exact parse_text

/--
**Reading and writing class paths.** Reading gives back a class path from its text exactly when its
entries are not empty and hold no colon. What is written of a list that was read is the list without
its empty elements, which reads as the same class path. Two lists that are joined by a colon read as
the class path of the first one with that of the second one appended.
-/
theorem parse_text_laws (c : ClassPath) (s t : String) :
    (parse c.text = c ↔ ∀ p ∈ c.entries, Listable p) ∧
      (parse s).text = withoutEmptyElements s ∧ parse (parse s).text = parse s ∧
      parse (s ++ ":" ++ t) = (parse s).append (parse t) :=
  ⟨parse_text_iff, text_parse, parse_text fun _ hp => listable_of_mem_parse hp, parse_append⟩

/-- An entry with a colon is listed with commas, which are not read as separators. -/
example : parse (text ⟨[⟨"a:b"⟩, ⟨"c"⟩]⟩) = ⟨[⟨"a"⟩, ⟨"b, c"⟩]⟩ := by decide

end BuildInputs.ClassPath

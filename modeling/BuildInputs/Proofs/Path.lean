import BuildInputs.Path
import BuildInputs.Proofs.Digest.Decoding
import BuildInputs.Proofs.Text.Split

/-!
# Names of paths

The name of a path is a part of its text, so it is not longer than the text, and it is empty only if
the text is.
-/

namespace BuildInputs

open Digest

namespace Path

theorem stepOf?_eq_name {part : List Char} {s : String} (h : stepOf? part = some (.name s)) :
    s = String.ofList part := by
  unfold stepOf? at h
  split at h
  · cases h
  · split at h
    · cases h
    · cases h; rfl

theorem stepOf?_name_ne_empty {part : List Char} {s : String}
    (h : stepOf? part = some (.name s)) : s ≠ "" := by
  rintro rfl
  have hpart : part = [] := by simpa using stepOf?_eq_name h
  rw [hpart] at h
  cases h

theorem exists_part_of_name_mem_steps {p : Path} {s : String} (h : Step.name s ∈ p.steps) :
    ∃ part ∈ Text.splitAll '/' p.text.toList, stepOf? part = some (.name s) := by
  unfold steps at h
  rcases List.mem_append.mp h with h | h
  · -- only the root and the dot can stand in front of the parts
    split at h
    · cases List.mem_singleton.mp h
    · split at h
      · cases List.mem_singleton.mp h
      · cases h
  · obtain ⟨part, hpart, hs⟩ := List.mem_filterMap.mp h
    exact ⟨part, hpart, hs⟩

theorem name_mem_steps {p : Path} {s : String} (h : p.fileName? = some s) :
    Step.name s ∈ p.steps := by
  unfold fileName? at h
  split at h
  · next hlast =>
    cases h
    exact List.mem_of_getLast? hlast
  · cases h

/-- **A name is not longer than the path.** -/
theorem utf8ByteSize_name_le (p : Path) : p.name.utf8ByteSize ≤ p.text.utf8ByteSize := by
  unfold name
  cases hname : p.fileName? with
  | none => exact Nat.le_refl _
  | some s =>
    obtain ⟨part, hpart, hs⟩ := exists_part_of_name_mem_steps (name_mem_steps hname)
    have := utf8ByteSize_ofList_le (Text.sublist_of_mem_splitAll hpart)
    rwa [String.ofList_toList, ← stepOf?_eq_name hs] at this

/-- **Only an empty path has an empty name.** -/
theorem name_ne_empty {p : Path} (h : p.text ≠ "") : p.name ≠ "" := by
  unfold name
  cases hname : p.fileName? with
  | none => exact h
  | some s =>
    obtain ⟨part, -, hs⟩ := exists_part_of_name_mem_steps (name_mem_steps hname)
    exact stepOf?_name_ne_empty hs

/-- A path below one that is not empty is not empty either. -/
theorem text_join_ne_empty {p : Path} (h : p.text ≠ "") (q : Path) : (p.join q).text ≠ "" := by
  unfold join
  split
  · next habsolute =>
    intro hempty
    rw [isAbsolute, hempty] at habsolute
    cases habsolute
  · split <;> simp [h]

end Path

end BuildInputs

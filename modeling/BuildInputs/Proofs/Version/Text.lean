import BuildInputs.Proofs.Decimal
import BuildInputs.Proofs.Except
import BuildInputs.Proofs.Text.Split
import BuildInputs.Version.Parser

/-!
# Versions and their text

Reading a version goes from left to right and takes as many characters for a part as belong to it.
For each part, what is read is its written form, and the written form is read if the text does not
go on with a character that would belong to the part as well:

1. a number (`number_eq_ok_iff`), which has no leading zeros and so is written in one way,
2. identifiers with dots between them (`dotted_of_segments`, `segments_dotted`),
3. identifiers after the mark that announces them, if there are any (`announced_of_marked`,
   `exists_marked_announced`).

In the text of a version every part is followed by the end or by a mark, and no mark belongs to the
part before it. So a text is read as a version exactly when it is the version's own text
(`parse_eq_ok_iff`).
-/

namespace BuildInputs.Version

open Text

variable {part : VersionPart} {cs rest : List Char}

/-! ## Numbers -/

theorem number_of_append {ds : List Char} (hdigits : ds.all Char.isDigit = true) (hne : ds ≠ [])
    (hrest : Stops Char.isDigit rest) :
    number part (ds ++ rest) =
      if ds.head? = some '0' ∧ ds.length ≠ 1 then throw (.leadingZero part)
      else if Decimal.value ds < UInt64.size then return ((Decimal.value ds).toUInt64, rest)
      else throw (.overflow part) := by
  obtain ⟨d, ds, rfl⟩ := List.exists_cons_of_ne_nil hne
  unfold number
  rw [takeWhile_append hdigits hrest, dropWhile_append hdigits hrest]
  simp

/-- **A number is read from its digits**, up to the next character that is no digit. -/
theorem number_eq_ok_iff {n : UInt64} : number part cs = .ok (n, rest) ↔
    cs = Nat.toDigits 10 n.toNat ++ rest ∧ Stops Char.isDigit rest := by
  constructor
  · intro h
    by_cases hne : cs.takeWhile Char.isDigit = []
    · unfold number at h
      rw [hne] at h
      cases hdrop : cs.dropWhile Char.isDigit <;> rw [hdrop] at h <;> cases h
    have hdigits : (cs.takeWhile Char.isDigit).all Char.isDigit = true := List.all_takeWhile
    rw [← List.takeWhile_append_dropWhile (p := Char.isDigit) (l := cs),
      number_of_append hdigits hne (stops_dropWhile cs)] at h
    split at h
    · cases h
    next hlead =>
    split at h
    next hrange =>
      cases h
      have hlead : Decimal.NoLeadingZero (cs.takeWhile Char.isDigit) := fun hhead =>
        not_not.mp fun hlength => hlead ⟨hhead, hlength⟩
      rw [UInt64.toNat_ofNat_of_lt' hrange, Decimal.toDigits_value hne hdigits hlead,
        List.takeWhile_append_dropWhile]
      exact ⟨rfl, stops_dropWhile cs⟩
    · cases h
  · rintro ⟨rfl, hrest⟩
    rw [number_of_append (Decimal.all_isDigit_toDigits _) Nat.toDigits_ne_nil hrest,
      if_neg fun h => h.2 (Decimal.noLeadingZero_toDigits _ h.1), Decimal.value_toDigits,
      if_pos (UInt64.toNat_lt_size n), Nat.toUInt64_eq, UInt64.ofNat_toNat]
    rfl

theorem dot_eq_ok_iff : dot part cs = .ok rest ↔ cs = '.' :: rest := by
  constructor
  · intro h
    unfold dot at h
    split at h <;> cases h
    rfl
  · rintro rfl
    rfl

/-! ## Identifiers -/

/-- Identifiers with dots between them. -/
def dotted (is : List Identifier) : List Char := ['.'].intercalate (is.map (·.chars))

/-- The characters of identifiers with dots between them. -/
def isDottedChar (c : Char) : Bool := isIdentifierChar c || c == '.'

theorem dotted_cons_cons (i j : Identifier) (is : List Identifier) :
    dotted (i :: j :: is) = i.chars ++ '.' :: dotted (j :: is) := by
  simp [dotted, List.intercalate]

theorem dotted_singleton (i : Identifier) : dotted [i] = i.chars := by
  simp [dotted, List.intercalate]

theorem toList_joinText (is : List Identifier) :
    (Identifier.joinText is).toList = dotted is := by
  unfold Identifier.joinText dotted
  rw [String.toList_intercalate, List.map_map]
  simp [Identifier.text, Function.comp_def]

section Segments

variable {α : Type} {check : Identifier → Except VersionError α} {xs : List α}

/-- One identifier is read, and after a dot the others. -/
theorem segments_of_append (i : Identifier) (hrest : Stops isIdentifierChar rest) :
    segments part check (i.chars ++ rest) = do
      let x ← check i
      match rest with
      | '.' :: rest => do
        let (others, rest) ← segments part check rest
        return (x :: others, rest)
      | rest => return ([x], rest) := by
  have htake : (i.chars ++ rest).takeWhile isIdentifierChar = i.chars :=
    takeWhile_append i.wellFormed hrest
  have hdrop : (i.chars ++ rest).dropWhile isIdentifierChar = rest :=
    dropWhile_append i.wellFormed hrest
  have hne : (i.chars ++ rest).takeWhile isIdentifierChar ≠ [] := by
    rw [htake]
    exact i.nonempty
  have hi : (⟨(i.chars ++ rest).takeWhile isIdentifierChar, hne, List.all_takeWhile⟩ : Identifier) =
      i := by
    cases i
    simp only [Identifier.mk.injEq]
    exact htake
  rw [segments, dif_neg hne, hi]
  refine congrArg (check i >>= ·) (funext fun x => ?_)
  split
  · next rest' hr =>
    rw [hdrop] at hr
    subst hr
    rfl
  · next hr =>
    rw [hdrop] at hr ⊢
    split
    · exact (hr _ rfl).elim
    · rfl

theorem segments_more (i : Identifier) (cs : List Char) :
    segments part check (i.chars ++ '.' :: cs) = do
      let x ← check i
      let (others, rest) ← segments part check cs
      return (x :: others, rest) :=
  segments_of_append i (stops_cons.mpr rfl)

theorem segments_last (i : Identifier) (hrest : Stops isDottedChar rest) :
    segments part check (i.chars ++ rest) = do
      let x ← check i
      return ([x], rest) := by
  have hidentifier : Stops isIdentifierChar rest := fun c hc =>
    (Bool.or_eq_false_iff.mp (hrest c hc)).1
  rw [segments_of_append i hidentifier]
  refine congrArg (check i >>= ·) (funext fun x => ?_)
  split
  · exact absurd (stops_cons.mp hrest) (by decide)
  · rfl

/-- What identifiers are read from starts with one of them. -/
theorem exists_identifier_of_segments (h : segments part check cs = .ok (xs, rest)) :
    ∃ i : Identifier, ∃ rest, cs = i.chars ++ rest ∧ Stops isIdentifierChar rest := by
  by_cases hne : cs.takeWhile isIdentifierChar = []
  · rw [segments, dif_pos hne] at h
    cases h
  · exact ⟨⟨_, hne, List.all_takeWhile⟩, cs.dropWhile isIdentifierChar,
      List.takeWhile_append_dropWhile.symm, stops_dropWhile cs⟩

/-- What is read is the written form of identifiers, followed by the rest. -/
theorem dotted_of_segments (h : segments part check cs = .ok (xs, rest)) :
    ∃ is, is ≠ [] ∧ is.mapM check = .ok xs ∧ cs = dotted is ++ rest := by
  -- by induction on the length: what follows a dot is shorter
  induction hlength : cs.length using Nat.strongRecOn generalizing cs xs with
  | ind n ih =>
    obtain ⟨i, after, rfl, hafter⟩ := exists_identifier_of_segments h
    by_cases hdot : after.head? = some '.'
    · obtain ⟨cs, rfl⟩ := List.head?_eq_some_iff.mp hdot
      rw [segments_more] at h
      obtain ⟨x, hx, h⟩ := bind_eq_ok.mp h
      obtain ⟨⟨others, rest'⟩, hothers, h⟩ := bind_eq_ok.mp h
      cases h
      have hshorter : cs.length < n := by
        simp only [List.length_append, List.length_cons] at hlength
        omega
      obtain ⟨is, hne, his, rfl⟩ := ih cs.length hshorter hothers rfl
      obtain ⟨j, is, rfl⟩ := List.exists_cons_of_ne_nil hne
      refine ⟨i :: j :: is, by simp, ?_, by simp [dotted_cons_cons]⟩
      exact mapM_eq_ok_iff.mpr (.cons hx (mapM_eq_ok_iff.mp his))
    · have hafter : Stops isDottedChar after := fun c hc => by
        have hne : c ≠ '.' := fun he => hdot (he ▸ hc)
        simp [isDottedChar, hafter c hc, hne]
      rw [segments_last i hafter] at h
      obtain ⟨x, hx, h⟩ := bind_eq_ok.mp h
      cases h
      refine ⟨[i], by simp, ?_, by rw [dotted_singleton]⟩
      exact mapM_eq_ok_iff.mpr (.cons hx .nil)

/-- **Identifiers are read from their written form.** -/
theorem segments_dotted {is : List Identifier} (hne : is ≠ []) (hxs : is.mapM check = .ok xs)
    (hrest : Stops isDottedChar rest) :
    segments part check (dotted is ++ rest) = .ok (xs, rest) := by
  induction mapM_eq_ok_iff.mp hxs with
  | nil => exact absurd rfl hne
  | @cons i x is xs hx htail ih =>
    cases is with
    | nil =>
      cases htail
      rw [dotted_singleton, segments_last i hrest, hx]
      rfl
    | cons j is =>
      rw [dotted_cons_cons, List.append_assoc, List.cons_append, segments_more, hx,
        ih (by simp) (mapM_eq_ok_iff.mpr htail)]
      rfl

/-! ## Marked parts -/

/-- Identifiers with the mark that announces them; nothing if there are none. -/
def announced (mark : Char) : List Identifier → List Char
  | [] => []
  | i :: is => mark :: dotted (i :: is)

/-- Identifiers that a mark announces, the part that was read last, and the rest of the input. -/
def marked (mark : Char) (part before : VersionPart) (check : Identifier → Except VersionError α)
    (cs : List Char) : Except VersionError (List α × VersionPart × List Char) :=
  if cs.head? = some mark then do
    let (xs, rest) ← segments part check cs.tail
    return (xs, part, rest)
  else return ([], before, cs)

variable {mark : Char} {before after : VersionPart}

section Continued

variable {β : Type} (k : List α × VersionPart × List Char → Except VersionError β)

theorem marked_cons_bind : marked mark part before check (mark :: cs) >>= k =
    segments part check cs >>= fun p => k (p.1, part, p.2) := by
  unfold marked
  rw [List.head?_cons, if_pos rfl]
  exact bind_assoc _ _ _

theorem marked_bind_of_head?_ne (h : cs.head? ≠ some mark) :
    marked mark part before check cs >>= k = k ([], before, cs) := by
  unfold marked
  rw [if_neg h]
  rfl

theorem marked_minus_bind : marked '-' part before check cs >>= k =
    match cs with
    | '-' :: cs => segments part check cs >>= fun p => k (p.1, part, p.2)
    | cs => k ([], before, cs) := by
  split
  · exact marked_cons_bind k
  · next hmark =>
    refine marked_bind_of_head?_ne k fun h => ?_
    obtain ⟨cs, rfl⟩ := List.head?_eq_some_iff.mp h
    exact hmark cs rfl

theorem marked_plus_bind : marked '+' part before check cs >>= k =
    match cs with
    | '+' :: cs => segments part check cs >>= fun p => k (p.1, part, p.2)
    | cs => k ([], before, cs) := by
  split
  · exact marked_cons_bind k
  · next hmark =>
    refine marked_bind_of_head?_ne k fun h => ?_
    obtain ⟨cs, rfl⟩ := List.head?_eq_some_iff.mp h
    exact hmark cs rfl

end Continued

theorem announced_of_marked (h : marked mark part before check cs = .ok (xs, after, rest)) :
    ∃ is, is.mapM check = .ok xs ∧ cs = announced mark is ++ rest := by
  unfold marked at h
  split at h
  · next hmark =>
    obtain ⟨cs, rfl⟩ := List.head?_eq_some_iff.mp hmark
    obtain ⟨⟨ys, rest'⟩, hread, h⟩ := bind_eq_ok.mp h
    cases h
    obtain ⟨is, hne, his, hcs⟩ := dotted_of_segments hread
    obtain ⟨i, is, rfl⟩ := List.exists_cons_of_ne_nil hne
    exact ⟨i :: is, his, congrArg (mark :: ·) hcs⟩
  · cases h
    exact ⟨[], rfl, rfl⟩

theorem exists_marked_announced {is : List Identifier} (hxs : is.mapM check = .ok xs)
    (hmark : rest.head? ≠ some mark) (hrest : Stops isDottedChar rest) :
    ∃ after, marked mark part before check (announced mark is ++ rest) = .ok (xs, after, rest) := by
  unfold marked
  cases is with
  | nil =>
    cases hxs
    exact ⟨before, if_neg hmark⟩
  | cons i is =>
    refine ⟨part, (if_pos rfl).trans (bind_eq_ok.mpr ⟨(xs, rest), ?_, rfl⟩)⟩
    exact segments_dotted (by simp) hxs hrest

end Segments

/-! ## Whole versions -/

/-- The parts of a version are read one after the other. -/
theorem parse_eq (s : String) : parse s =
    if s.isEmpty then throw .empty
    else (do
      let (major, rest) ← number .major s.toList
      let rest ← dot .major rest
      let (minor, rest) ← number .minor rest
      let rest ← dot .minor rest
      let (patch, rest) ← number .patch rest
      let (prerelease, part, rest) ← marked '-' .prerelease .patch prereleaseIdentifier rest
      let (build, part, rest) ← marked '+' .build part pure rest
      match rest with
      | [] => return { major, minor, patch, prerelease, build }
      | c :: _ => throw (.unexpectedAfter part c)) := by
  unfold parse
  split
  · rfl
  · iterate 5
      refine congrArg (_ >>= ·) (funext fun x => ?_)
    simp only [marked_minus_bind, marked_plus_bind]
    rfl

theorem mapM_prereleaseIdentifier_eq_ok_iff {is : List Identifier}
    {ps : List PrereleaseIdentifier} :
    is.mapM prereleaseIdentifier = .ok ps ↔ is = ps.map (·.val) := by
  have hcheck (i : Identifier) (p : PrereleaseIdentifier) :
      prereleaseIdentifier i = .ok p ↔ i = p.val := by
    unfold prereleaseIdentifier
    split
    · exact ⟨fun h => by cases h; rfl, fun h => congrArg Except.ok (Subtype.ext h)⟩
    · next hi => exact ⟨fun h => (by cases h), fun h => absurd (h ▸ p.property) hi⟩
  rw [mapM_eq_ok_iff]
  simp only [hcheck]
  rw [List.forall₂_map_right_iff.symm, List.forall₂_eq_eq_eq]

theorem mapM_pure_eq_ok_iff {is js : List Identifier} :
    is.mapM (pure : Identifier → Except VersionError Identifier) = .ok js ↔ is = js := by
  rw [List.mapM_pure, List.map_id']
  exact ⟨Except.ok.inj, congrArg Except.ok⟩

theorem toList_announced (mark : Char) (is : List Identifier) :
    (if is.isEmpty then "" else String.singleton mark ++ Identifier.joinText is).toList =
      announced mark is := by
  cases is with
  | nil => rfl
  | cons i is => simp [announced, toList_joinText]

/-- **The written form of a version**, part by part. -/
theorem toList_text (v : Version) : v.text.toList =
    Nat.toDigits 10 v.major.toNat ++ '.' :: (Nat.toDigits 10 v.minor.toNat ++ '.' ::
      (Nat.toDigits 10 v.patch.toNat ++
        (announced '-' v.prereleaseKey ++ announced '+' v.build))) := by
  have hkey : v.prerelease.isEmpty = v.prereleaseKey.isEmpty := List.isEmpty_map.symm
  have htext : v.text = toString v.major.toNat ++ "." ++ toString v.minor.toNat ++ "." ++
      toString v.patch.toNat ++
      (if v.prereleaseKey.isEmpty then ""
        else String.singleton '-' ++ Identifier.joinText v.prereleaseKey) ++
      (if v.build.isEmpty then "" else String.singleton '+' ++ Identifier.joinText v.build) := by
    rw [← hkey]
    rfl
  simp only [htext, String.toList_append, toList_announced, Nat.toString_eq_ofList_toDigits,
    String.toList_ofList]
  simp

/-- What is read as a version is its text. -/
theorem text_of_parse {s : String} {v : Version} (h : parse s = .ok v) : s = v.text := by
  rw [parse_eq] at h
  split at h
  · cases h
  obtain ⟨⟨major, afterMajor⟩, hmajor, h⟩ := bind_eq_ok.mp h
  obtain ⟨beforeMinor, hdot, h⟩ := bind_eq_ok.mp h
  obtain ⟨⟨minor, afterMinor⟩, hminor, h⟩ := bind_eq_ok.mp h
  obtain ⟨beforePatch, hdot', h⟩ := bind_eq_ok.mp h
  obtain ⟨⟨patch, afterPatch⟩, hpatch, h⟩ := bind_eq_ok.mp h
  obtain ⟨⟨prerelease, part, afterPrerelease⟩, hprerelease, h⟩ := bind_eq_ok.mp h
  obtain ⟨⟨build, part', afterBuild⟩, hbuild, h⟩ := bind_eq_ok.mp h
  obtain ⟨is, his, hafterPatch⟩ := announced_of_marked hprerelease
  obtain ⟨js, hjs, hafterPrerelease⟩ := announced_of_marked hbuild
  dsimp only at h
  split at h
  · cases h
    rw [mapM_prereleaseIdentifier_eq_ok_iff] at his
    rw [mapM_pure_eq_ok_iff] at hjs
    apply String.toList_inj.mp
    rw [toList_text, (number_eq_ok_iff.mp hmajor).1, dot_eq_ok_iff.mp hdot,
      (number_eq_ok_iff.mp hminor).1, dot_eq_ok_iff.mp hdot', (number_eq_ok_iff.mp hpatch).1,
      hafterPatch, hafterPrerelease, his, hjs, List.append_nil]
    rfl
  · cases h

/-- What a mark announces stops a part that the mark does not belong to. -/
theorem stops_announced {p : Char → Bool} {mark : Char} (hmark : p mark = false) :
    ∀ is, Stops p (announced mark is)
  | [] => stops_nil
  | _ :: _ => stops_cons.mpr hmark

/-- **A version is read from its text.** -/
theorem parse_text (v : Version) : parse v.text = .ok v := by
  have hpre : v.prereleaseKey.mapM prereleaseIdentifier = .ok v.prerelease :=
    mapM_prereleaseIdentifier_eq_ok_iff.mpr rfl
  have hnumbers : Stops Char.isDigit (announced '-' v.prereleaseKey ++ announced '+' v.build) :=
    (stops_announced rfl _).append (stops_announced rfl _)
  have hidentifiers : Stops isDottedChar (announced '+' v.build) := stops_announced rfl _
  have hminus : (announced '+' v.build).head? ≠ some '-' := by
    cases v.build <;> simp [announced]
  obtain ⟨part, hprerelease⟩ : ∃ part, marked '-' .prerelease .patch prereleaseIdentifier
      (announced '-' v.prereleaseKey ++ announced '+' v.build) =
        .ok (v.prerelease, part, announced '+' v.build) :=
    exists_marked_announced hpre hminus hidentifiers
  obtain ⟨part', hbuild⟩ : ∃ part', marked '+' .build part pure (announced '+' v.build ++ []) =
      .ok (v.build, part', []) :=
    exists_marked_announced (mapM_pure_eq_ok_iff.mpr rfl) (by simp) stops_nil
  rw [List.append_nil] at hbuild
  have hne : ¬v.text.isEmpty = true := by
    rw [String.isEmpty_iff, ← String.toList_eq_nil_iff, toList_text]
    simp [Nat.toDigits_ne_nil]
  rw [parse_eq, if_neg hne, toList_text]
  refine bind_eq_ok.mpr ⟨(v.major, _), number_eq_ok_iff.mpr ⟨rfl, stops_cons.mpr rfl⟩, ?_⟩
  refine bind_eq_ok.mpr ⟨_, dot_eq_ok_iff.mpr rfl, ?_⟩
  refine bind_eq_ok.mpr ⟨(v.minor, _), number_eq_ok_iff.mpr ⟨rfl, stops_cons.mpr rfl⟩, ?_⟩
  refine bind_eq_ok.mpr ⟨_, dot_eq_ok_iff.mpr rfl, ?_⟩
  refine bind_eq_ok.mpr ⟨(v.patch, _), number_eq_ok_iff.mpr ⟨rfl, hnumbers⟩, ?_⟩
  refine bind_eq_ok.mpr ⟨_, hprerelease, ?_⟩
  exact bind_eq_ok.mpr ⟨_, hbuild, rfl⟩

/-- **Exactly the texts of versions are read**, each as its version. -/
theorem parse_eq_ok_iff {s : String} {v : Version} : parse s = .ok v ↔ s = v.text :=
  ⟨text_of_parse, fun h => h ▸ parse_text v⟩

end BuildInputs.Version

import BuildInputs.Proofs.Snapshot.Faithful
import BuildInputs.Proofs.Text.Split

/-!
# Relative paths are sequences of names

A visit tells where a location lies by a text, the names on the way to it with slashes between
them. Where names are not empty and hold no slash, the text is as good as the sequence of names, its
trail.

* `trailOf_trailText` — the names of a trail are read back from its text
* `visit_eq_map_trails` — a visit finds every location under the text of its trail
* `nodup_map_trailText` — no two locations have one relative path
* `exists_child_of_recordsBelow_perm` — what is recorded below a directory, by trail and in whatever
  order, tells what is recorded of each of its children
-/

namespace BuildInputs

/-! ## Names and trails -/

/-- A text that can stand between two slashes. -/
structure IsName (s : String) : Prop where
  ne_empty : s ≠ ""
  noSlash : '/' ∉ s.toList

instance (s : String) : Decidable (IsName s) :=
  decidable_of_iff (s ≠ "" ∧ '/' ∉ s.toList) ⟨fun h => ⟨h.1, h.2⟩, fun h => ⟨h.1, h.2⟩⟩

/-- The names on the way from a location down to another one. -/
abbrev Trail := List String

/-- The relative path of a trail. -/
def trailText (t : Trail) : String := String.intercalate "/" t

/-- The trail of a relative path. -/
def trailOf (relative : String) : Trail :=
  if relative.isEmpty then [] else (Text.splitAll '/' relative.toList).map String.ofList

theorem trailText_cons (n : String) {t : Trail} (h : t ≠ []) :
    trailText (n :: t) = n ++ "/" ++ trailText t := by
  cases t with
  | nil => exact absurd rfl h
  | cons m t => exact String.intercalate_cons_cons

theorem toList_trailText_cons (n : String) {t : Trail} (h : t ≠ []) :
    (trailText (n :: t)).toList = n.toList ++ '/' :: (trailText t).toList := by
  rw [trailText_cons n h, String.toList_append, String.toList_append, List.append_assoc]
  rfl

theorem trailText_singleton (n : String) : trailText [n] = n := String.intercalate_singleton

variable {n : String} {t : Trail}

/-- The text of a trail begins as its first name does. -/
theorem isPrefix_trailText (n : String) (t : Trail) :
    n.toList <+: (trailText (n :: t)).toList := by
  cases t with
  | nil => exact (trailText_singleton n).symm ▸ List.prefix_rfl
  | cons m t =>
    rw [toList_trailText_cons n (List.cons_ne_nil m t)]
    exact List.prefix_append _ _

theorem toList_ne_nil (h : n ≠ "") : n.toList ≠ [] :=
  fun hnil => h (String.toList_eq_nil_iff.mp hnil)

theorem trailText_ne_empty (h : n ≠ "") : trailText (n :: t) ≠ "" := by
  intro hempty
  have hprefix := isPrefix_trailText n t
  rw [hempty] at hprefix
  exact toList_ne_nil h (List.prefix_nil.mp hprefix)

theorem splitAll_trailText : ∀ {t : Trail} {n : String}, IsName n → (∀ m ∈ t, IsName m) →
    Text.splitAll '/' (trailText (n :: t)).toList = (n :: t).map String.toList
  | [], n, hn, _ => by
    rw [trailText_singleton, Text.splitAll_of_notMem hn.noSlash]
    rfl
  | m :: t, n, hn, ht => by
    obtain ⟨hm, ht⟩ := List.forall_mem_cons.mp ht
    rw [toList_trailText_cons n (List.cons_ne_nil m t), Text.splitAll_append_cons,
      Text.splitAll_of_notMem hn.noSlash, splitAll_trailText hm ht]
    rfl

/-- **The names of a trail are read back from its text.** -/
theorem trailOf_trailText (ht : ∀ n ∈ t, IsName n) : trailOf (trailText t) = t := by
  cases t with
  | nil => rfl
  | cons n t =>
    obtain ⟨hn, ht⟩ := List.forall_mem_cons.mp ht
    have hread : String.ofList ∘ String.toList = id := funext fun _ => String.ofList_toList
    have hempty : ¬ (trailText (n :: t)).isEmpty = true := by
      rw [String.isEmpty_iff]
      exact trailText_ne_empty hn.ne_empty
    unfold trailOf
    rw [if_neg hempty, splitAll_trailText hn ht, List.map_map, hread, List.map_id]

/-- A relative path of names is no absolute path. -/
theorem isAbsolute_trailText (ht : ∀ n ∈ t, IsName n) :
    (Path.mk (trailText t)).isAbsolute = false := by
  cases t with
  | nil => rfl
  | cons n t =>
    have hn := ht n List.mem_cons_self
    obtain ⟨rest, hrest⟩ := isPrefix_trailText n t
    obtain ⟨c, cs, hcs⟩ := List.exists_cons_of_ne_nil (toList_ne_nil hn.ne_empty)
    have hslash : c ≠ '/' := fun h => hn.noSlash (hcs ▸ h ▸ List.mem_cons_self)
    unfold Path.isAbsolute
    rw [← hrest, hcs]
    simpa using hslash

namespace Location

/-- The relative path of a child continues the trail with the name of the child. -/
theorem childPath_trailText (ht : trailText t ≠ "") (n : String) :
    childPath (trailText t) n = trailText (t ++ [n]) := by
  have hne : t ≠ [] := fun hnil => ht (hnil ▸ rfl)
  have htext : trailText (t ++ [n]) = _ :=
    String.intercalate_append_of_ne_nil hne (List.cons_ne_nil n [])
  unfold childPath
  rw [if_neg (by rwa [String.isEmpty_iff]), htext, String.intercalate_singleton]
  rfl

/-! ## Trees of names -/

/-- Children of one directory have different names, which are not empty and hold no slash. -/
inductive ProperNames : Location → Prop
  | file (p : Path) (content : ContentHash) : ProperNames (file p content)
  | directory {p : Path} {cs : List Location} (hdistinct : (cs.map name).Nodup)
    (hname : ∀ c ∈ cs, IsName c.name) (hc : ∀ c ∈ cs, ProperNames c) : ProperNames (directory p cs)
  | missing (p : Path) : ProperNames (missing p)

theorem ProperNames.nodup {l : Location} (h : ProperNames l) : (l.children.map name).Nodup := by
  cases h with
  | file | missing => exact List.nodup_nil
  | directory hdistinct _ _ => exact hdistinct

theorem ProperNames.child {l : Location} (h : ProperNames l) :
    ∀ c ∈ l.children, IsName c.name ∧ ProperNames c := by
  intro c hc
  cases h with
  | file | missing => exact absurd hc List.not_mem_nil
  | directory _ hname hchildren => exact ⟨hname c hc, hchildren c hc⟩

theorem ProperNames.name_ne_empty {l : Location} (h : ProperNames l) :
    ∀ c ∈ l.children, c.name ≠ "" :=
  fun c hc => (h.child c hc).1.ne_empty

theorem properNames_below {p : Path} {c : Location} (hname : IsName c.name) (hc : ProperNames c) :
    ProperNames (.directory p [c]) :=
  .directory (List.nodup_singleton _) (List.forall_mem_singleton.mpr hname)
    (List.forall_mem_singleton.mpr hc)

mutual

/-- This location and everything below it, each with its trail. -/
def trails : Location → List (Trail × Location)
  | directory p cs => ([], directory p cs) :: trailsBelow cs
  | l => [([], l)]

def trailsBelow : List Location → List (Trail × Location)
  | [] => []
  | c :: cs => (trails c).map (Prod.map (c.name :: ·) id) ++ trailsBelow cs

end

theorem trails_eq_cons (l : Location) : l.trails = ([], l) :: trailsBelow l.children := by
  cases l <;> simp only [trails, trailsBelow, children]

theorem trailsBelow_eq_flatMap (cs : List Location) : trailsBelow cs =
    cs.flatMap fun c => (trails c).map (Prod.map (c.name :: ·) id) := by
  induction cs with
  | nil => rfl
  | cons c cs ih => rw [trailsBelow, ih, List.flatMap_cons]

theorem mem_trailsBelow {cs : List Location} {m : Location} : (t, m) ∈ trailsBelow cs ↔
    ∃ c ∈ cs, ∃ u, (u, m) ∈ c.trails ∧ t = c.name :: u := by
  rw [trailsBelow_eq_flatMap, List.mem_flatMap]
  refine exists_congr fun c => and_congr_right fun _ => ?_
  rw [List.mem_map]
  constructor
  · rintro ⟨⟨u, _⟩, hu, h⟩
    obtain ⟨rfl, rfl⟩ := Prod.mk.inj h
    exact ⟨u, hu, rfl⟩
  · rintro ⟨u, hu, rfl⟩
    exact ⟨(u, m), hu, rfl⟩

theorem isName_of_mem_trails {l : Location} (h : ProperNames l) :
    ∀ e ∈ l.trails, ∀ n ∈ e.1, IsName n := by
  induction l using childInduction with
  | step l ih =>
    rintro ⟨t, m⟩ he
    rw [trails_eq_cons, List.mem_cons] at he
    rcases he with heq | he
    · cases heq
      exact List.forall_mem_nil _
    · obtain ⟨c, hc, u, hu, rfl⟩ := mem_trailsBelow.mp he
      obtain ⟨hname, hproper⟩ := h.child c hc
      exact List.forall_mem_cons.mpr ⟨hname, ih c hc hproper _ hu⟩

/-- **No two locations have one trail.** -/
theorem nodup_map_trails {l : Location} (h : ProperNames l) : (l.trails.map Prod.fst).Nodup := by
  induction l using childInduction with
  | step l ih =>
    have hbelow : (trailsBelow l.children).map Prod.fst =
        l.children.flatMap fun c => (c.trails.map Prod.fst).map (c.name :: ·) := by
      rw [trailsBelow_eq_flatMap, List.map_flatMap]
      simp only [List.map_map]
      rfl
    rw [trails_eq_cons, List.map_cons, hbelow, List.nodup_cons, List.nodup_flatMap]
    refine ⟨fun hnil => ?_, fun c hc => ?_, ?_⟩
    · obtain ⟨c, -, hnil⟩ := List.mem_flatMap.mp hnil
      obtain ⟨t, -, hnil⟩ := List.mem_map.mp hnil
      exact List.cons_ne_nil _ _ hnil
    · exact (ih c hc (h.child c hc).2).map List.cons_injective
    · -- trails to different children differ in their first name
      refine (List.pairwise_map.mp h.nodup).imp fun {c d} hne t hc hd => ?_
      obtain ⟨u, -, rfl⟩ := List.mem_map.mp hc
      obtain ⟨v, -, heq⟩ := List.mem_map.mp hd
      exact hne (List.cons.inj heq).1.symm

/-- **No two locations have one relative path.** -/
theorem nodup_map_trailText {l : Location} (h : ProperNames l) :
    (l.trails.map fun e => trailText e.1).Nodup := by
  have hinj : ∀ t ∈ l.trails.map Prod.fst, ∀ u ∈ l.trails.map Prod.fst,
      trailText t = trailText u → t = u := by
    intro t ht u hu heq
    obtain ⟨e, he, rfl⟩ := List.mem_map.mp ht
    obtain ⟨d, hd, rfl⟩ := List.mem_map.mp hu
    rw [← trailOf_trailText (isName_of_mem_trails h e he), heq,
      trailOf_trailText (isName_of_mem_trails h d hd)]
  have hnodup := List.Nodup.map_on hinj (nodup_map_trails h)
  rwa [List.map_map] at hnodup

theorem visitFrom_trailText {l : Location} (ht : trailText t ≠ "") : visitFrom (trailText t) l =
    (trails l).map (Prod.map (fun u => trailText (t ++ u)) id) := by
  induction l using childInduction generalizing t with
  | step l ih =>
    rw [visitFrom_eq_cons, trails_eq_cons, visitChildren_eq_flatMap, trailsBelow_eq_flatMap,
      List.map_cons, List.map_flatMap, Prod.map_apply, List.append_nil, id]
    refine congrArg (_ :: ·) (List.flatMap_congr fun c hc => ?_)
    have hchild := childPath_ne_empty (n := c.name) ht
    rw [childPath_trailText ht] at hchild ⊢
    rw [ih c hc hchild, List.map_map]
    simp only [List.append_assoc, List.singleton_append]
    rfl

/-- **A visit finds every location under the text of its trail**, if no child of it has an empty
name. -/
theorem visit_eq_map_trails {l : Location} (h : ∀ c ∈ l.children, c.name ≠ "") :
    l.visit = (trails l).map (Prod.map trailText id) := by
  unfold visit
  rw [visitFrom_eq_cons, trails_eq_cons, visitChildren_eq_flatMap, trailsBelow_eq_flatMap,
    List.map_cons, List.map_flatMap]
  refine congrArg (_ :: ·) (List.flatMap_congr fun c hc => ?_)
  have hname : trailText [c.name] = c.name := trailText_singleton _
  have hvisit : visitFrom (trailText [c.name]) c = _ :=
    visitFrom_trailText (trailText_ne_empty (h c hc))
  rw [hname] at hvisit
  rw [List.map_map]
  exact hvisit

/-! ## Trails with their first name taken off -/

variable {β : Type}

/-- What lies below the child of the given name, seen from that child. -/
def strip (n : String) (es : List (Trail × β)) : List (Trail × β) :=
  es.filterMap fun (t, x) =>
    match t with
    | [] => none
    | m :: t => if m = n then some (t, x) else none

theorem strip_append (n : String) (es fs : List (Trail × β)) :
    strip n (es ++ fs) = strip n es ++ strip n fs :=
  List.filterMap_append

theorem strip_perm (n : String) {es fs : List (Trail × β)} (h : es.Perm fs) :
    (strip n es).Perm (strip n fs) :=
  h.filterMap _

/-- The first name is taken off again. -/
theorem strip_map_cons (n : String) (es : List (Trail × β)) :
    strip n (es.map (Prod.map (n :: ·) id)) = es := by
  unfold strip
  rw [List.filterMap_map]
  refine (List.filterMap_congr fun e _ => ?_).trans List.filterMap_some
  exact if_pos rfl

theorem strip_map_cons_of_ne {m n : String} (h : m ≠ n) (es : List (Trail × β)) :
    strip n (es.map (Prod.map (m :: ·) id)) = [] := by
  unfold strip
  rw [List.filterMap_map, List.filterMap_eq_nil_iff]
  intro e _
  exact if_neg h

/-- Everything below some locations with its trail, and what is recorded of it. -/
def recordsBelow (record : Location → β) (cs : List Location) : List (Trail × β) :=
  (trailsBelow cs).map (Prod.map id record)

/-- Everything at and below a location with its trail, and what is recorded of it. -/
def records (record : Location → β) (l : Location) : List (Trail × β) :=
  l.trails.map (Prod.map id record)

variable (record : Location → β)

theorem records_eq_cons (l : Location) :
    l.records record = ([], record l) :: recordsBelow record l.children := by
  unfold records recordsBelow
  rw [trails_eq_cons, List.map_cons, Prod.map_apply, id]

theorem recordsBelow_cons (c : Location) (cs : List Location) :
    recordsBelow record (c :: cs) =
      (c.records record).map (Prod.map (c.name :: ·) id) ++ recordsBelow record cs := by
  unfold recordsBelow records
  rw [trailsBelow, List.map_append, List.map_map, List.map_map]
  rfl

theorem recordsBelow_eq_flatMap (cs : List Location) : recordsBelow record cs =
    cs.flatMap fun c => (c.records record).map (Prod.map (c.name :: ·) id) := by
  induction cs with
  | nil => rfl
  | cons c cs ih => rw [recordsBelow_cons, ih, List.flatMap_cons]

theorem recordsBelow_perm {cs ds : List Location} (h : cs.Perm ds) :
    (recordsBelow record cs).Perm (recordsBelow record ds) := by
  rw [recordsBelow_eq_flatMap, recordsBelow_eq_flatMap]
  exact h.flatMap_right _

theorem ne_nil_of_mem_recordsBelow {cs : List Location} {e : Trail × β}
    (h : e ∈ recordsBelow record cs) : e.1 ≠ [] := by
  rw [recordsBelow_eq_flatMap] at h
  obtain ⟨c, -, h⟩ := List.mem_flatMap.mp h
  obtain ⟨e, -, rfl⟩ := List.mem_map.mp h
  exact List.cons_ne_nil _ _

theorem recordsBelow_eq_nil_iff {cs : List Location} : recordsBelow record cs = [] ↔ cs = [] := by
  cases cs with
  | nil => exact iff_of_true rfl rfl
  | cons c cs =>
    refine iff_of_false (fun h => ?_) (List.cons_ne_nil c cs)
    rw [recordsBelow_cons, records_eq_cons] at h
    cases h

theorem strip_recordsBelow_of_notMem {n : String} {cs : List Location} (h : n ∉ cs.map name) :
    strip n (recordsBelow record cs) = [] := by
  induction cs with
  | nil => rfl
  | cons c cs ih =>
    obtain ⟨hne, hrest⟩ := List.ne_and_not_mem_of_not_mem_cons h
    rw [recordsBelow_cons, strip_append, strip_map_cons_of_ne hne.symm, ih hrest, List.nil_append]

/-- **What lies below a child is told by its name**, as no other child has that name. -/
theorem strip_recordsBelow_cons {c : Location} {cs : List Location}
    (h : ((c :: cs).map name).Nodup) :
    strip c.name (recordsBelow record (c :: cs)) = c.records record := by
  rw [recordsBelow_cons, strip_append, strip_map_cons,
    strip_recordsBelow_of_notMem record (List.nodup_cons.mp h).1, List.append_nil]

/-- What is recorded of a location itself, and what is recorded below it. -/
theorem records_perm_iff {l m : Location} : (l.records record).Perm (m.records record) ↔
    record l = record m ∧
      (recordsBelow record l.children).Perm (recordsBelow record m.children) := by
  rw [records_eq_cons, records_eq_cons]
  constructor
  · intro h
    have hroot : record l = record m := by
      rcases List.mem_cons.mp (h.subset List.mem_cons_self) with heq | hbelow
      · exact congrArg Prod.snd heq
      · exact absurd rfl (ne_nil_of_mem_recordsBelow record hbelow)
    rw [hroot] at h
    exact ⟨hroot, h.cons_inv⟩
  · rintro ⟨hroot, hbelow⟩
    rw [hroot]
    exact hbelow.cons _

/-- **The same records below two directories pair their children by name.** -/
theorem exists_child_of_recordsBelow_perm {c : Location} {cs ds : List Location}
    (hcs : ((c :: cs).map name).Nodup) (hds : (ds.map name).Nodup)
    (h : (recordsBelow record (c :: cs)).Perm (recordsBelow record ds)) :
    ∃ before d after, ds = before ++ d :: after ∧ c.name = d.name ∧
      (c.records record).Perm (d.records record) ∧
      (recordsBelow record cs).Perm (recordsBelow record (before ++ after)) := by
  have hstrip : (c.records record).Perm (strip c.name (recordsBelow record ds)) :=
    strip_recordsBelow_cons record hcs ▸ strip_perm c.name h
  have hmem : c.name ∈ ds.map name := by
    by_contra hnone
    rw [strip_recordsBelow_of_notMem record hnone, records_eq_cons] at hstrip
    exact absurd hstrip.eq_nil (List.cons_ne_nil _ _)
  obtain ⟨d, hd, hname⟩ := List.mem_map.mp hmem
  obtain ⟨before, after, rfl⟩ := List.append_of_mem hd
  -- the partner moves to the front
  have hmiddle : (before ++ d :: after).Perm (d :: (before ++ after)) := List.perm_middle
  have hdistinct := (hmiddle.map name).nodup_iff.mp hds
  have hfront := h.trans (recordsBelow_perm record hmiddle)
  have hpair : (c.records record).Perm (d.records record) := by
    rw [← strip_recordsBelow_cons record hcs, ← strip_recordsBelow_cons record hdistinct, hname]
    exact strip_perm c.name hfront
  refine ⟨before, d, after, rfl, hname.symm, hpair, ?_⟩
  rw [recordsBelow_cons, recordsBelow_cons, hname] at hfront
  exact (List.perm_append_left_iff _).mp
    (hfront.trans (((hpair.map _).symm).append_right _))

end Location

end BuildInputs

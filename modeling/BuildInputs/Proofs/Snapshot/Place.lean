import BuildInputs.Proofs.Snapshot.Merkle

/-!
# Places in trees

A place is a tree with a gap for one location. Putting different locations into the gap gives trees
that agree in everything else, so it can be said what depends on the location and what does not.

* `hashText_put_ne` — another content at the place gives every directory above it another hash
* `exists_bareVisit_put` — a visit finds the same around the place, whatever content is put there
* `exists_put_of_mem_visitFrom` — whatever a visit finds lies at a place
* `eq_or_ne_empty_of_mem_visit` — below a root the relative paths are not empty, if names are not
-/

namespace BuildInputs.Location

open Digest

/-- Where a location lies in a tree: the directories above it, with all their other children. -/
inductive Place
  | here
  | inside (p : Path) (before : List Location) (inner : Place) (after : List Location)

namespace Place

/-- The tree with a location put at the place. -/
def put : Place → Location → Location
  | here, l => l
  | inside p before inner after, l => directory p (before ++ inner.put l :: after)

/-- The name of the tree, when a location of the given name is put at the place. -/
def name (n : String) : Place → String
  | here => n
  | inside p .. => p.name

/-- The relative path of the place for a visit that comes to the tree under `relative`. -/
def relativeFrom (relative n : String) : Place → String
  | here => relative
  | inside _ _ inner _ => inner.relativeFrom (childPath relative (inner.name n)) n

/-- The directories above the place, the outermost first, each with the place in it. -/
def enclosing : Place → List Place
  | here => []
  | inside p before inner after => inside p before inner after :: inner.enclosing

theorem relativeFrom_ne_empty {n : String} : ∀ {place : Place} {relative : String},
    relative ≠ "" → place.relativeFrom relative n ≠ ""
  | here, _, h => h
  | inside _ _ inner _, _, h => inner.relativeFrom_ne_empty (childPath_ne_empty h)

theorem name_put (place : Place) (l : Location) : (place.put l).name = place.name l.name := by
  cases place <;> rfl

theorem kind_put_file (place : Place) (p : Path) (c c' : ContentHash) :
    (place.put (file p c)).kind = (place.put (file p c')).kind := by
  cases place <;> rfl

theorem path_put_file (place : Place) (p : Path) (c c' : ContentHash) :
    (place.put (file p c)).path = (place.put (file p c')).path := by
  cases place <;> rfl

end Place

/-! ## Hashes above a place -/

variable {known : List Bytes}

theorem map_label_append_cons (before after : List Location) (l : Location) :
    (before ++ l :: after).map label = before.map label ++ l.label :: after.map label := by
  rw [List.map_append, List.map_cons]

/-- **A directory has another hash when one child has another label.** -/
theorem hash?_directory_ne (hc : CollisionFree known) {p : Path} {before after : List Location}
    {l m : Location} (hl : Hashed known (directory p (before ++ l :: after)))
    (hm : Hashed known (directory p (before ++ m :: after))) (h : l.label ≠ m.label) :
    (directory p (before ++ l :: after)).hash? ≠ (directory p (before ++ m :: after)).hash? := by
  intro hhash
  refine h ?_
  have hstream := hc.stream_eq (hl.streams List.mem_cons_self) (hm.streams List.mem_cons_self)
    (Option.some.inj hhash)
  have hframable {cs : List Location} (hcs : Hashed known (directory p cs)) :
      ∀ x ∈ (childRecords cs).map ChildRecord.label, x.Framable := by
    rw [map_label_childRecords]
    exact List.forall_mem_map.mpr fun c hc => (hcs.child c hc).label
  have hperm := perm_of_directoryStream_eq (hframable hl) (hframable hm) hstream
  rw [map_label_childRecords, map_label_childRecords, map_label_append_cons,
    map_label_append_cons] at hperm
  -- the labels of the other children cancel
  have hcancel := (List.perm_append_left_iff _).mp hperm
  have hsingle : [l.label].Perm [m.label] :=
    (List.perm_append_right_iff (after.map label)).mp hcancel
  exact List.singleton_perm_singleton.mp hsingle

theorem hashText_eq_of_hash?_eq {l m : Location} (h : l.hash? = m.hash?) :
    l.hashText = m.hashText := by
  unfold hashText
  rw [h]

theorem Hashed.inner {p : Path} {before after : List Location} {inner : Place} {l : Location}
    (h : Hashed known ((Place.inside p before inner after).put l)) : Hashed known (inner.put l) :=
  h.child _ (List.mem_append_right _ List.mem_cons_self)

/-- **Another content at a place gives the whole tree another hash.** -/
theorem hashText_put_ne (hc : CollisionFree known) {c c' : ContentHash} (hne : c ≠ c') {p : Path} :
    ∀ {place : Place}, Hashed known (place.put (file p c)) →
      Hashed known (place.put (file p c')) →
        (place.put (file p c)).hashText ≠ (place.put (file p c')).hashText
  | .here, _, _, h => hne (congrArg ContentHash.mk h)
  | .inside q before inner after, hl, hm, h => by
    have hinner := hashText_put_ne hc hne hl.inner hm.inner
    refine hash?_directory_ne hc hl hm (fun hlabel => hinner (Label.mk.inj hlabel).2.2) ?_
    exact congrArg (fun text => some (ContentHash.mk text)) h

/-- Each of the directories above the place is hashed with the tree. -/
theorem Hashed.enclosing {l : Location} : ∀ {place above : Place}, above ∈ place.enclosing →
    Hashed known (place.put l) → Hashed known (above.put l)
  | .here, _, hmem, _ => absurd hmem List.not_mem_nil
  | .inside p before inner after, above, hmem, h => by
    rcases List.mem_cons.mp hmem with rfl | hmem
    · exact h
    · exact Hashed.enclosing hmem h.inner

theorem hash?_enclosing_ne (hc : CollisionFree known) {c c' : ContentHash} (hne : c ≠ c')
    {p : Path} {place above : Place} (hmem : above ∈ place.enclosing)
    (hl : Hashed known (place.put (file p c))) (hm : Hashed known (place.put (file p c'))) :
    (above.put (file p c)).hash? ≠ (above.put (file p c')).hash? :=
  fun h => hashText_put_ne hc hne (hl.enclosing hmem) (hm.enclosing hmem)
    (hashText_eq_of_hash?_eq h)

/-! ## Visits around a place -/

/-- The location without its children. -/
def bare : Location → Location
  | directory p _ => directory p []
  | l => l

/-- What a visit shows that does not look at children. -/
def bareVisit (relative : String) (l : Location) : List (String × Location) :=
  (visitFrom relative l).map (Prod.map id bare)

theorem bareVisit_file (relative : String) (p : Path) (c : ContentHash) :
    bareVisit relative (file p c) = [(relative, file p c)] := by
  unfold bareVisit
  rw [visitFrom_file]
  rfl

theorem bareVisit_directory (relative : String) (p : Path) (cs : List Location) :
    bareVisit relative (directory p cs) = (relative, directory p []) ::
      cs.flatMap fun c => bareVisit (childPath relative c.name) c := by
  unfold bareVisit
  rw [visitFrom_directory, List.map_cons, visitChildren_eq_flatMap, List.map_flatMap]
  rfl

/-- **A visit finds the same around a place**, whatever content the file at the place has. -/
theorem exists_bareVisit_put (p : Path) : ∀ (place : Place) (relative : String),
    ∃ before after, ∀ c, bareVisit relative (place.put (file p c)) =
      before ++ (place.relativeFrom relative p.name, file p c) :: after
  | .here, relative => ⟨[], [], fun c => bareVisit_file relative p c⟩
  | .inside q cs inner ds, relative => by
    obtain ⟨before, after, hinner⟩ :=
      exists_bareVisit_put p inner (childPath relative (inner.name p.name))
    refine ⟨(relative, directory q []) ::
        (cs.flatMap fun c => bareVisit (childPath relative c.name) c) ++ before,
      after ++ ds.flatMap fun c => bareVisit (childPath relative c.name) c, fun c => ?_⟩
    have hname : (inner.put (file p c)).name = inner.name p.name := inner.name_put _
    rw [Place.put, bareVisit_directory, List.flatMap_append, List.flatMap_cons, hname, hinner,
      Place.relativeFrom]
    simp only [List.append_assoc, List.cons_append]

mutual

/-- **Whatever a visit finds lies at a place.** -/
theorem exists_put_of_mem_visitFrom {relative r : String} {m : Location} :
    ∀ {l : Location}, (r, m) ∈ visitFrom relative l →
      ∃ place : Place, place.put m = l ∧ place.relativeFrom relative m.name = r
  | directory p cs, h => by
    rw [visitFrom_directory, List.mem_cons] at h
    rcases h with h | h
    · cases h
      exact ⟨.here, rfl, rfl⟩
    · obtain ⟨before, inner, after, hcs, hr⟩ := exists_put_of_mem_visitChildren h
      exact ⟨.inside p before inner after, congrArg (directory p) hcs, hr⟩
  | file p content, h => by
    rw [visitFrom_file, List.mem_singleton] at h
    cases h
    exact ⟨.here, rfl, rfl⟩
  | missing p, h => by
    rw [visitFrom_missing, List.mem_singleton] at h
    cases h
    exact ⟨.here, rfl, rfl⟩

theorem exists_put_of_mem_visitChildren {relative r : String} {m : Location} :
    ∀ {cs : List Location}, (r, m) ∈ visitChildren relative cs →
      ∃ (before : List Location) (inner : Place) (after : List Location),
        before ++ inner.put m :: after = cs ∧
          inner.relativeFrom (childPath relative (inner.name m.name)) m.name = r
  | [], h => by
    rw [visitChildren] at h
    exact absurd h List.not_mem_nil
  | c :: cs, h => by
    rw [visitChildren, List.mem_append] at h
    rcases h with h | h
    · obtain ⟨inner, rfl, hr⟩ := exists_put_of_mem_visitFrom h
      rw [inner.name_put] at hr
      exact ⟨[], inner, cs, rfl, hr⟩
    · obtain ⟨before, inner, after, rfl, hr⟩ := exists_put_of_mem_visitChildren h
      exact ⟨c :: before, inner, after, rfl, hr⟩

end

/-- **Below a location no relative path is empty**, if no child of it has an empty name. -/
theorem eq_or_ne_empty_of_mem_visit {l m : Location} {r : String}
    (hnames : ∀ c ∈ l.children, c.name ≠ "") (h : (r, m) ∈ l.visit) : m = l ∨ r ≠ "" := by
  obtain ⟨place, rfl, rfl⟩ := exists_put_of_mem_visitFrom h
  cases place with
  | here => exact .inl rfl
  | inside p before inner after =>
    have hname : (inner.put m).name ≠ "" :=
      hnames _ (List.mem_append_right _ List.mem_cons_self)
    rw [inner.name_put] at hname
    exact .inr (inner.relativeFrom_ne_empty hname)

end BuildInputs.Location

import BuildInputs.Snapshot

/-!
# Trees up to the order of children

Two locations are alike when they have the same name, the same kind and the same content, where the
content of a directory is its children in any order. The paths that are stored below them do not
matter, nor does where they lie. Names of children need not differ.

What can be told about a location from its name, kind and content is the same for alike locations,
so whatever is collected on a visit is the same up to order (`flatMap_visit_perm`).
-/

namespace BuildInputs.Location

mutual

/-- The same name, kind and content. -/
inductive Alike : Location → Location → Prop
  | file {p q : Path} {content : ContentHash} (hn : p.name = q.name) :
    Alike (file p content) (file q content)
  | directory {p q : Path} {cs ds : List Location} (hn : p.name = q.name)
    (hc : AlikeChildren cs ds) : Alike (directory p cs) (directory q ds)
  | missing {p q : Path} (hn : p.name = q.name) : Alike (missing p) (missing q)

/-- Children that can be paired one to one, in any order. -/
inductive AlikeChildren : List Location → List Location → Prop
  | nil : AlikeChildren [] []
  | cons {c d : Location} {cs : List Location} (before after : List Location) (hd : Alike c d)
    (hr : AlikeChildren cs (before ++ after)) : AlikeChildren (c :: cs) (before ++ d :: after)

end

theorem Alike.name_eq {l m : Location} (h : Alike l m) : l.name = m.name := by
  cases h with
  | file hn => exact hn
  | directory hn _ => exact hn
  | missing hn => exact hn

theorem Alike.kind_eq {l m : Location} (h : Alike l m) : l.kind = m.kind := by
  cases h <;> rfl

theorem AlikeChildren.exists_mem {c : Location} : ∀ {cs ds : List Location},
    AlikeChildren cs ds → c ∈ cs → ∃ d ∈ ds, Alike c d
  | _ :: _, _, .cons (d := d) before after hd hr, hc => by
    rcases List.mem_cons.mp hc with rfl | hc
    · exact ⟨d, List.mem_append_right _ List.mem_cons_self, hd⟩
    · obtain ⟨e, he, halike⟩ := hr.exists_mem hc
      exact ⟨e, ((List.sublist_cons_self d after).append_left before).subset he, halike⟩

/-- What is passed on from the children to the location holds of every location. -/
@[elab_as_elim]
theorem childInduction {motive : Location → Prop}
    (step : ∀ l, (∀ c ∈ l.children, motive c) → motive l) (l : Location) : motive l :=
  step l fun c _ => childInduction step c
termination_by sizeOf l
decreasing_by
  cases l with
  | directory p cs =>
    have hc : c ∈ cs := by assumption
    have := List.sizeOf_lt_of_mem hc
    simp only [directory.sizeOf_spec]
    omega
  | file p content | missing p => exact absurd ‹_› List.not_mem_nil

/-! ## Visits -/

@[simp] theorem visitFrom_file (relative : String) (p : Path) (content : ContentHash) :
    visitFrom relative (file p content) = [(relative, file p content)] := by
  simp [visitFrom]

@[simp] theorem visitFrom_directory (relative : String) (p : Path) (cs : List Location) :
    visitFrom relative (directory p cs) =
      (relative, directory p cs) :: visitChildren relative cs := by
  rw [visitFrom]

@[simp] theorem visitFrom_missing (relative : String) (p : Path) :
    visitFrom relative (missing p) = [(relative, missing p)] := by
  simp [visitFrom]

theorem visitFrom_eq_cons (relative : String) (l : Location) :
    visitFrom relative l = (relative, l) :: visitChildren relative l.children := by
  cases l with
  | file p content => rw [visitFrom_file]; rfl
  | directory p cs => rw [visitFrom_directory]; rfl
  | missing p => rw [visitFrom_missing]; rfl

theorem visitChildren_eq_flatMap (relative : String) (cs : List Location) :
    visitChildren relative cs = cs.flatMap fun c => visitFrom (childPath relative c.name) c := by
  induction cs with
  | nil => rfl
  | cons c cs ih => rw [visitChildren, ih, List.flatMap_cons]

theorem visitChildren_append (relative : String) (cs ds : List Location) :
    visitChildren relative (cs ++ ds) = visitChildren relative cs ++ visitChildren relative ds := by
  induction cs with
  | nil => rfl
  | cons c cs ih => rw [List.cons_append, visitChildren, visitChildren, ih, List.append_assoc]

theorem childPath_ne_empty {relative n : String} (h : relative ≠ "") :
    childPath relative n ≠ "" := by
  unfold childPath
  rw [if_neg (by rwa [String.isEmpty_iff])]
  intro hempty
  have hlength := congrArg (fun s => s.toList.length) hempty
  simp at hlength

/-- What is collected of a location depends on its relative path, name, kind and content only. -/
def RespectsAlike {β : Type} (collect : String × Location → List β) : Prop :=
  ∀ relative l m, Alike l m → collect (relative, l) = collect (relative, m)

variable {β : Type} {collect : String × Location → List β}

mutual

theorem flatMap_visitFrom_perm (hcollect : RespectsAlike collect) {l m : Location}
    (h : Alike l m) (relative : String) :
    ((visitFrom relative l).flatMap collect).Perm ((visitFrom relative m).flatMap collect) := by
  cases h with
  | file hn =>
    rw [visitFrom_file, visitFrom_file, List.flatMap_singleton, List.flatMap_singleton,
      hcollect relative _ _ (Alike.file hn)]
  | directory hn hc =>
    rw [visitFrom_directory, visitFrom_directory, List.flatMap_cons, List.flatMap_cons,
      hcollect relative _ _ (Alike.directory hn hc)]
    exact (flatMap_visitChildren_perm hcollect hc relative).append_left _
  | missing hn =>
    rw [visitFrom_missing, visitFrom_missing, List.flatMap_singleton, List.flatMap_singleton,
      hcollect relative _ _ (Alike.missing hn)]

theorem flatMap_visitChildren_perm (hcollect : RespectsAlike collect) {cs ds : List Location}
    (h : AlikeChildren cs ds) (relative : String) :
    ((visitChildren relative cs).flatMap collect).Perm
      ((visitChildren relative ds).flatMap collect) := by
  cases h with
  | nil => exact List.Perm.refl _
  | @cons c _ _ before _ hd hr =>
    have hhead := flatMap_visitFrom_perm hcollect hd (childPath relative c.name)
    have htail := flatMap_visitChildren_perm hcollect hr relative
    rw [hd.name_eq] at hhead
    rw [visitChildren_append, List.flatMap_append] at htail
    rw [visitChildren, visitChildren_append, visitChildren, List.flatMap_append,
      List.flatMap_append, List.flatMap_append, hd.name_eq]
    -- the partner of the first child moves to the front
    refine (hhead.append htail).trans ?_
    rw [← List.append_assoc, ← List.append_assoc]
    exact List.perm_append_comm.append_right _

end

/-- **Visits to alike locations collect the same, up to order.** -/
theorem flatMap_visit_perm (hcollect : RespectsAlike collect) {l m : Location} (h : Alike l m) :
    (l.visit.flatMap collect).Perm (m.visit.flatMap collect) :=
  flatMap_visitFrom_perm hcollect h ""

end BuildInputs.Location

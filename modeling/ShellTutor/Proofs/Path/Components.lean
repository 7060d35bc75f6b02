import ShellTutor.Proofs.Path.Rebuild

/-!
# Paths as lists of components

A path in normal form is a list of components, written with a slash before each. Everything about
`normalize`, `join`, `splitParent` and `resolve` is read off that list: joining adds a component at
its end, and splitting takes the last one away.
-/

namespace ShellTutor.Path

/-- A text that can stand between two slashes. -/
def IsComponent (s : String) : Prop :=
  s ≠ "" ∧ '/' ∉ s.toList

/-- A path in normal form. -/
def IsNormal (path : String) : Prop :=
  normalize path = path

/-- The last component of a path, empty for the root. -/
def lastName (path : String) : String :=
  (splitParent path).2

/-- Taking the directory of a path is splitting it there. -/
theorem splitParent_eq (path : String) : splitParent path = (parent path, lastName path) := by
  rw [lastName, parent, splitParent]
  split <;> rfl

/-- Writing components and cutting at slashes gives them back, behind the empty piece that the
leading slash makes. -/
theorem pieces_ofComponents {cs : List String} (hcs : ∀ c ∈ cs, IsComponent c) (hne : cs ≠ []) :
    pieces (ofComponents cs) = "" :: cs := by
  have hslash : ∀ l ∈ cs.map String.toList, '/' ∉ l := by
    intro l hl
    obtain ⟨c, hc, rfl⟩ := List.mem_map.mp hl
    exact (hcs c hc).2
  rw [pieces, toList_ofComponents, List.splitOn_cons_eq_if_modifyHead,
    List.splitOn_intercalate '/' hslash (by simpa using hne)]
  simp [Function.comp_def]

theorem isComponent_of_mem_pieces {path piece : String} (h : piece ∈ pieces path)
    (hne : piece ≠ "") : IsComponent piece := by
  obtain ⟨cs, hcs, rfl⟩ := List.mem_map.mp h
  exact ⟨hne, by simpa using Text.not_mem_of_mem_splitOn hcs⟩

theorem isComponent_of_mem_components {path c : String} (h : c ∈ components path) :
    IsComponent c := by
  obtain ⟨hmem, hne⟩ := List.mem_filter.mp h
  exact isComponent_of_mem_pieces hmem (by simpa using hne)

theorem components_ofComponents {cs : List String} (hcs : ∀ c ∈ cs, IsComponent c) :
    components (ofComponents cs) = cs := by
  by_cases hne : cs = []
  · subst hne
    decide
  · rw [components, pieces_ofComponents hcs hne, List.filter_cons_of_neg (by simp)]
    exact List.filter_eq_self.mpr fun c hc => by simpa using (hcs c hc).1

theorem ofComponents_inj {cs ds : List String} (hcs : ∀ c ∈ cs, IsComponent c)
    (hds : ∀ c ∈ ds, IsComponent c) : ofComponents cs = ofComponents ds ↔ cs = ds := by
  constructor
  · intro h
    rw [← components_ofComponents hcs, h, components_ofComponents hds]
  · exact congrArg ofComponents

theorem isNormal_ofComponents {cs : List String} (hcs : ∀ c ∈ cs, IsComponent c) :
    IsNormal (ofComponents cs) := by
  rw [IsNormal, normalize_eq, components_ofComponents hcs]

theorem isNormal_normalize (path : String) : IsNormal (normalize path) := by
  rw [normalize_eq]
  exact isNormal_ofComponents fun _ => isComponent_of_mem_components

theorem IsNormal.ofComponents_eq {path : String} (h : IsNormal path) :
    ofComponents (components path) = path := by
  rw [← normalize_eq, h]

/-- Normal paths are exactly the written lists of components. -/
theorem IsNormal.exists_components {path : String} (h : IsNormal path) :
    ∃ cs, (∀ c ∈ cs, IsComponent c) ∧ path = ofComponents cs :=
  ⟨components path, fun _ => isComponent_of_mem_components, h.ofComponents_eq.symm⟩

theorem isNormal_root : IsNormal "/" := by
  simpa [ofComponents] using isNormal_ofComponents (List.forall_mem_nil IsComponent)

theorem join_ofComponents {cs : List String} (hcs : ∀ c ∈ cs, IsComponent c) (name : String) :
    join (ofComponents cs) name = ofComponents (cs ++ [name]) := by
  by_cases hne : cs = []
  · subst hne
    simp [join, ofComponents]
  · have hroot : ofComponents cs ≠ "/" := by
      intro h
      exact hne ((ofComponents_inj hcs (List.forall_mem_nil _)).mp (h.trans (by simp [ofComponents])))
    rw [join, if_neg hroot, ofComponents, ofComponents,
      String.intercalate_append_of_ne_nil hne (by simp)]
    simp [String.append_assoc]

private theorem splitParent_of_toList {path name : String} {dir : List Char}
    (hpath : path.toList = dir ++ '/' :: name.toList) (hname : '/' ∉ name.toList) :
    splitParent path = (if dir = [] then "/" else String.ofList dir, name) := by
  have hbackwards : path.toList.reverse = name.toList.reverse ++ '/' :: dir.reverse := by
    simp [hpath]
  have hkeep : ∀ c ∈ name.toList.reverse, (c != '/') = true := by
    intro c hc
    rw [bne_iff_ne]
    rintro rfl
    exact hname (List.mem_reverse.mp hc)
  have htake : path.toList.reverse.takeWhile (· != '/') = name.toList.reverse := by
    rw [hbackwards, List.takeWhile_append_of_pos hkeep]
    simp
  have hdrop : path.toList.reverse.dropWhile (· != '/') = '/' :: dir.reverse := by
    rw [hbackwards, List.dropWhile_append_of_pos hkeep]
    simp
  simp only [splitParent, htake, hdrop, List.reverse_reverse, String.ofList_toList]
  rcases List.eq_nil_or_concat dir with rfl | ⟨init, c, rfl⟩
  · rfl
  · simp

theorem splitParent_ofComponents (cs : List String) {name : String} (hname : IsComponent name) :
    splitParent (ofComponents (cs ++ [name])) = (ofComponents cs, name) := by
  by_cases hne : cs = []
  · subst hne
    have hsplit : (ofComponents ([] ++ [name])).toList = [] ++ '/' :: name.toList := by
      simp [toList_ofComponents]
    exact splitParent_of_toList hsplit hname.2
  · have hsplit : (ofComponents (cs ++ [name])).toList =
        (ofComponents cs).toList ++ '/' :: name.toList := by
      rw [ofComponents, String.intercalate_append_of_ne_nil hne (by simp)]
      simp [ofComponents]
    rw [splitParent_of_toList hsplit hname.2, if_neg (by simp [toList_ofComponents]),
      String.ofList_toList]

section Join

variable {dir name : String} (hdir : IsNormal dir) (hname : IsComponent name)

include hdir hname

private theorem exists_components_join :
    ∃ cs, (∀ c ∈ cs, IsComponent c) ∧ dir = ofComponents cs ∧
      join dir name = ofComponents (cs ++ [name]) ∧ ∀ c ∈ cs ++ [name], IsComponent c := by
  obtain ⟨cs, hcs, rfl⟩ := hdir.exists_components
  refine ⟨cs, hcs, rfl, join_ofComponents hcs name, ?_⟩
  intro c hc
  rcases List.mem_append.mp hc with hc | hc
  · exact hcs c hc
  · rw [List.mem_singleton.mp hc]
    exact hname

theorem isNormal_join : IsNormal (join dir name) := by
  obtain ⟨cs, -, -, hjoin, hall⟩ := exists_components_join hdir hname
  rw [hjoin]
  exact isNormal_ofComponents hall

theorem splitParent_join : splitParent (join dir name) = (dir, name) := by
  obtain ⟨cs, -, hcs, hjoin, -⟩ := exists_components_join hdir hname
  rw [hjoin, splitParent_ofComponents cs hname, hcs]

theorem parent_join : parent (join dir name) = dir := by
  exact congrArg Prod.fst ((splitParent_eq _).symm.trans (splitParent_join hdir hname))

theorem lastName_join : lastName (join dir name) = name := by
  rw [lastName, splitParent_join hdir hname]

theorem join_ne_root : join dir name ≠ "/" := by
  intro h
  have hlast := lastName_join hdir hname
  rw [h] at hlast
  exact hname.1 hlast.symm

theorem join_ne_dir : join dir name ≠ dir := by
  obtain ⟨cs, hcs, rfl, hjoin, hall⟩ := exists_components_join hdir hname
  rw [hjoin, Ne, ofComponents_inj hall hcs]
  simp

theorem join_join_ne_dir {below : String} (hbelow : IsComponent below) :
    join (join dir name) below ≠ dir := by
  obtain ⟨cs, hcs, rfl, hjoin, hall⟩ := exists_components_join hdir hname
  have hmore : ∀ c ∈ cs ++ [name] ++ [below], IsComponent c :=
    List.forall_mem_append.mpr ⟨hall, List.forall_mem_singleton.mpr hbelow⟩
  rw [hjoin, join_ofComponents hall, Ne, ofComponents_inj hmore hcs]
  simp

end Join

/-- Every normal path but the root is a name in a directory. -/
theorem IsNormal.exists_join {path : String} (h : IsNormal path) (hne : path ≠ "/") :
    ∃ dir name, IsNormal dir ∧ IsComponent name ∧ path = join dir name := by
  obtain ⟨cs, hcs, rfl⟩ := h.exists_components
  rcases List.eq_nil_or_concat cs with rfl | ⟨init, name, rfl⟩
  · exact absurd (by simp [ofComponents]) hne
  · rw [List.concat_eq_append] at hcs ⊢
    have hinit : ∀ c ∈ init, IsComponent c := fun c hc => hcs c (List.mem_append_left _ hc)
    exact ⟨ofComponents init, name, isNormal_ofComponents hinit,
      hcs name (List.mem_append_right _ (List.mem_singleton.mpr rfl)),
      (join_ofComponents hinit name).symm⟩

theorem join_parent_lastName {path : String} (h : IsNormal path) (hne : path ≠ "/") :
    join (parent path) (lastName path) = path := by
  obtain ⟨dir, name, hdir, hname, rfl⟩ := h.exists_join hne
  rw [parent_join hdir hname, lastName_join hdir hname]

theorem IsNormal.parent {path : String} (h : IsNormal path) : IsNormal (parent path) := by
  by_cases hne : path = "/"
  · subst hne
    exact isNormal_root
  · obtain ⟨dir, name, hdir, hname, rfl⟩ := h.exists_join hne
    rwa [parent_join hdir hname]

/-- The key under which a file is looked up is its path. -/
theorem join_normalize_parent {path : String} (h : IsNormal path) :
    join (normalize (parent path)) (lastName path) = path := by
  by_cases hroot : path = "/"
  · subst hroot
    decide +kernel
  · have hparent : normalize (parent path) = parent path := h.parent
    rw [hparent, join_parent_lastName h hroot]

private theorem isComponent_of_mem_steps {steps : List String}
    (hsteps : ∀ s ∈ steps, s ≠ "" → IsComponent s) {stack : List String}
    (hstack : ∀ c ∈ stack, IsComponent c) :
    ∀ c ∈ steps.foldl step stack, IsComponent c := by
  induction steps generalizing stack with
  | nil => exact hstack
  | cons s steps ih =>
    refine ih (fun s' hs' => hsteps s' (List.mem_cons_of_mem _ hs')) ?_
    intro c hc
    rw [step] at hc
    split at hc
    · exact hstack c hc
    · rename_i hkeep
      split at hc
      · exact hstack c (List.mem_of_mem_tail hc)
      · rcases List.mem_cons.mp hc with rfl | hc
        · exact hsteps c (List.mem_cons_self ..) fun h => hkeep (Or.inl h)
        · exact hstack c hc

/-- A resolved path is in normal form, from whatever directory. -/
theorem isNormal_resolve (cwd input : String) : IsNormal (resolve cwd input) := by
  refine isNormal_ofComponents fun c hc => ?_
  exact isComponent_of_mem_steps (fun _ h hne => isComponent_of_mem_pieces h hne)
    (by simp) c (List.mem_reverse.mp hc)

end ShellTutor.Path

import ShellTutor.Proofs.Path.Resolve

/-!
# Spellings of a path

A path keeps its components when slashes are doubled in it or put at its end. What is looked up,
joined or resolved goes by the components of the directory alone, so it comes out the same for each
of its spellings. Whether a directory is above another one is a test on the texts. For a text that
starts with the directory it lies in, the test finds all directories above; where slashes are
doubled earlier, it misses some.
-/

namespace ShellTutor.Path

theorem pieces_append_slash (front back : String) :
    pieces (front ++ "/" ++ back) = pieces front ++ pieces back := by
  have hcut : (front.toList ++ '/' :: back.toList).splitOn '/' =
      front.toList.splitOn '/' ++ back.toList.splitOn '/' :=
    List.splitOnP_append_cons _ _ (beq_self_eq_true '/')
  rw [pieces, pieces, pieces, ← List.map_append, ← hcut]
  simp

theorem components_append_slash (front back : String) :
    components (front ++ "/" ++ back) = components front ++ components back := by
  rw [components, pieces_append_slash, List.filter_append]
  rfl

/-- Joining puts the components of the name behind those of the directory, in whatever form the two
are. -/
theorem components_join_append (dir name : String) :
    components (join dir name) = components dir ++ components name := by
  rw [join]
  split
  · rename_i hroot
    have hslash : "/" ++ name = "" ++ "/" ++ name := by simp
    rw [hroot, hslash, components_append_slash]
    rfl
  · exact components_append_slash dir name

theorem components_normalize (path : String) : components (normalize path) = components path := by
  rw [normalize_eq]
  exact components_ofComponents fun _ => isComponent_of_mem_components

theorem normalize_normalize (path : String) : normalize (normalize path) = normalize path :=
  isNormal_normalize path

theorem normalize_join_normalize (dir name : String) :
    normalize (join (normalize dir) name) = normalize (join dir name) := by
  rw [normalize_eq, components_join_append, components_normalize, ← components_join_append,
    normalize_eq]

/-- An operand that is not absolute goes on behind the components of the directory. -/
theorem resolve_of_not_absolute {input : String} (h : input.toList.head? ≠ some '/')
    (cwd : String) :
    resolve cwd input =
      ofComponents ((components cwd ++ components input).foldl step []).reverse := by
  rw [resolve, if_neg h, ← components_join_append, components, foldl_step_filter]

/-- An operand leads to the same path from every spelling of the directory. -/
theorem resolve_normalize (cwd input : String) :
    resolve (normalize cwd) input = resolve cwd input := by
  by_cases habsolute : input.toList.head? = some '/'
  · rw [resolve_of_absolute habsolute, resolve_of_absolute habsolute]
  · rw [resolve_of_not_absolute habsolute, resolve_of_not_absolute habsolute, components_normalize]

/-- From the root a path is resolved by its components alone, absolute or not. -/
theorem resolve_from_root (path : String) :
    resolve "/" path = ofComponents ((components path).foldl step []).reverse := by
  by_cases habsolute : path.toList.head? = some '/'
  · exact resolve_of_absolute habsolute "/"
  · have hroot : components "/" = [] := by decide
    rw [resolve_of_not_absolute habsolute, hroot, List.nil_append]

theorem resolve_root_normalize (path : String) :
    resolve "/" (normalize path) = resolve "/" path := by
  rw [resolve_from_root, resolve_from_root, components_normalize]

/-- Where no component is `.` or `..`, only slashes are left to resolve. -/
theorem resolve_root_of_plain {path : String} (h : ∀ c ∈ components path, c ≠ "." ∧ c ≠ "..") :
    resolve "/" path = normalize path := by
  have hsteps : ∀ c ∈ components path, IsStep c := fun c hc =>
    ⟨isComponent_of_mem_components hc, h c hc⟩
  rw [resolve_from_root, foldl_step_of_isStep hsteps, List.append_nil, List.reverse_reverse,
    normalize_eq]

/-- One step up from such a path leads to the directory that it lies in. -/
theorem resolve_dotdot_of_plain {path : String}
    (h : ∀ c ∈ components path, c ≠ "." ∧ c ≠ "..") :
    resolve path ".." = parent (normalize path) := by
  have hresolved : IsResolved (normalize path) :=
    resolve_root_of_plain h ▸ isResolved_resolve "/" path
  rw [← resolve_normalize]
  by_cases hroot : normalize path = "/"
  · rw [hroot]
    decide +kernel
  · obtain ⟨dir, name, hdir, hname, hjoin⟩ := hresolved.exists_join hroot
    rw [hjoin, resolve_dotdot_join hdir hname, parent_join hdir.isNormal hname.1]

/-- A spelling that starts with the directory it lies in, in normal form. Directly below the root,
every spelling counts. -/
def StartsWithParent (path : String) : Prop :=
  parent (normalize path) = "/" ∨ (parent (normalize path) ++ "/").toList <+: path.toList

theorem isAbove_normalize {dir path : String} :
    IsAbove dir (normalize path) ↔ IsAbove dir path := by
  rw [IsAbove, IsAbove, components_normalize]

/-- A text that goes on with a slash behind a directory spells that directory, or one below it. -/
theorem eq_or_isAbove_of_startsWith {dir path : String} (hdir : IsNormal dir)
    (h : (dir ++ "/").toList <+: path.toList) : normalize path = dir ∨ IsAbove dir path := by
  obtain ⟨rest, hrest⟩ := h
  have hpath : path = dir ++ "/" ++ String.ofList rest := by
    rw [← String.toList_inj, ← hrest]
    simp
  have hsplit : components path = components dir ++ components (String.ofList rest) := by
    rw [hpath, components_append_slash]
  by_cases hbelow : components (String.ofList rest) = []
  · left
    rw [normalize_eq, hsplit, hbelow, List.append_nil]
    exact hdir.ofComponents_eq
  · exact Or.inr ⟨_, hbelow, hsplit⟩

/-- A path in normal form that goes on with a slash behind a directory lies below it. -/
theorem isAbove_of_startsWith {dir path : String} (hdir : IsNormal dir) (hpath : IsNormal path)
    (h : (dir ++ "/").toList <+: path.toList) : IsAbove dir path := by
  refine (eq_or_isAbove_of_startsWith hdir h).resolve_left fun heq => ?_
  have hsame : path = dir := hpath.symm.trans heq
  have hlength := h.length_le
  rw [hsame, String.toList_append, List.length_append] at hlength
  exact Nat.not_succ_le_self _ hlength

/-- A path above another one is the directory that this one lies in, or it is above that. -/
theorem eq_or_isAbove_parent {dir path : String} (hdir : IsNormal dir) (h : IsAbove dir path) :
    dir = parent (normalize path) ∨ IsAbove dir (parent (normalize path)) := by
  obtain ⟨below, hne, heq⟩ := h
  obtain ⟨init, last, rfl⟩ : ∃ init last, below = init ++ [last] :=
    ⟨_, _, (List.dropLast_concat_getLast hne).symm⟩
  have hroot : normalize path ≠ "/" := by
    intro hroot
    have hnil : components path = [] := by
      rw [← components_normalize, hroot]
      decide
    simp [hnil] at heq
  obtain ⟨up, name, hup, hname, hjoin⟩ := (isNormal_normalize path).exists_join hroot
  have hsplit : components dir ++ init = components up := by
    rw [← components_normalize, hjoin, components_join hup hname, ← List.append_assoc] at heq
    exact (List.append_inj_left' heq rfl).symm
  rw [hjoin, parent_join hup hname]
  by_cases hinit : init = []
  · left
    rw [← hdir.ofComponents_eq, ← hup.ofComponents_eq, ← hsplit, hinit, List.append_nil]
  · exact Or.inr ⟨init, hinit, hsplit.symm⟩

theorem not_isAbove_root (dir : String) : ¬ IsAbove dir "/" := by
  rintro ⟨below, hne, heq⟩
  have hnil : components "/" = [] := by decide
  rw [hnil] at heq
  exact hne (List.append_eq_nil_iff.mp heq.symm).2

theorem isAbove_iff {path other : String} :
    IsAbove path other ↔ components path <+: components other ∧
      components path ≠ components other := by
  constructor
  · rintro ⟨below, hne, heq⟩
    refine ⟨⟨below, heq.symm⟩, fun hsame => hne ?_⟩
    rwa [hsame, List.self_eq_append_right] at heq
  · rintro ⟨⟨below, heq⟩, hne⟩
    refine ⟨below, ?_, heq.symm⟩
    rintro rfl
    exact hne (by rw [← heq, List.append_nil])

instance (path other : String) : Decidable (IsAbove path other) :=
  decidable_of_iff _ isAbove_iff.symm

theorem normalize_join {name : String} (h : IsComponent name) (dir : String) :
    normalize (join dir name) = join (normalize dir) name := by
  rw [← normalize_join_normalize]
  exact isNormal_join (isNormal_normalize dir) h

/-- What lies below a directory is a name in it, or lies below such a name. -/
theorem isAbove_iff_exists_join {dir key : String} (hdir : IsNormal dir) (hkey : IsNormal key) :
    IsAbove dir key ↔
      ∃ name, IsComponent name ∧ (key = join dir name ∨ IsAbove (join dir name) key) := by
  constructor
  · rintro ⟨below, hne, heq⟩
    obtain ⟨name, below, rfl⟩ := List.exists_cons_of_ne_nil hne
    have hname : IsComponent name := isComponent_of_mem_components (by rw [heq]; simp)
    have hsplit : components key = components (join dir name) ++ below := by
      rw [components_join hdir hname, heq, List.append_assoc, List.singleton_append]
    refine ⟨name, hname, ?_⟩
    by_cases hlast : below = []
    · left
      rw [← hkey.ofComponents_eq, hsplit, hlast, List.append_nil,
        (isNormal_join hdir hname).ofComponents_eq]
    · exact Or.inr ⟨below, hlast, hsplit⟩
  · rintro ⟨name, hname, rfl | ⟨below, -, heq⟩⟩
    · exact isAbove_join hdir hname
    · rw [components_join hdir hname, List.append_assoc] at heq
      exact ⟨[name] ++ below, by simp, heq⟩

/-- Such a spelling starts with every directory above it. -/
theorem StartsWithParent.root_or_startsWith {dir path : String} (h : StartsWithParent path)
    (hdir : IsNormal dir) (habove : IsAbove dir path) :
    dir = "/" ∨ (dir ++ "/").toList <+: path.toList := by
  rcases eq_or_isAbove_parent hdir habove with rfl | hhigher
  · exact h
  · rcases h with hroot | hstart
    · exact absurd (hroot ▸ hhigher) (not_isAbove_root dir)
    · have hparent : IsNormal (parent (normalize path)) := (isNormal_normalize path).parent
      refine (hhigher.root_or_isPrefixOf hdir hparent).imp_right fun hup => ?_
      have hslash : (parent (normalize path)).toList <+: (parent (normalize path) ++ "/").toList :=
        ⟨"/".toList, String.toList_append.symm⟩
      exact ((List.isPrefixOf_iff_prefix.mp hup).trans hslash).trans hstart

/-- The normal form of a path is a slash and its components with slashes between them, whether the
path is left as it is or written anew; writing anew changes nothing just where the test for normal
form passes. Normal forms stay as they are, and two paths have the same one just if they have the
same components. A path in normal form other than the root is split into the directory that it lies
in and its last component, and joining these gives it back; a name that is joined to a directory is
split off it again. -/
theorem normalize_writes_components :
    (∀ path, normalize path = "/" ++ "/".intercalate (components path) ∧
      rebuild path = normalize path ∧ (isNormalized path = true ↔ rebuild path = path) ∧
      normalize (normalize path) = normalize path) ∧
    (∀ path other, normalize path = normalize other ↔ components path = components other) ∧
    (∀ path, normalize path = path → path ≠ "/" →
      ∃ dir name, splitParent path = (dir, name) ∧ normalize dir = dir ∧ dir = parent path ∧
        name ≠ "" ∧ '/' ∉ name.toList ∧ join dir name = path ∧
        components path = components dir ++ [name]) ∧
    ∀ dir name, normalize dir = dir → name ≠ "" → '/' ∉ name.toList →
      normalize (join dir name) = join dir name ∧ splitParent (join dir name) = (dir, name) := by
  refine ⟨fun path => ?_, fun path other => ?_, ?_, ?_⟩
  · have hsame : rebuild path = normalize path := by rw [rebuild_eq, normalize_eq]
    refine ⟨normalize_eq path, hsame, ?_, normalize_normalize path⟩
    rw [hsame, isNormalized_iff_normalize_eq]
  · rw [normalize_eq, normalize_eq]
    exact ofComponents_inj (fun _ => isComponent_of_mem_components)
      fun _ => isComponent_of_mem_components
  · intro path hpath hne
    obtain ⟨dir, name, hdir, hname, rfl⟩ := IsNormal.exists_join hpath hne
    exact ⟨dir, name, splitParent_join hdir hname, hdir, (parent_join hdir hname).symm, hname.1,
      hname.2, rfl, components_join hdir hname⟩
  · intro dir name hdir hsome hslash
    have hname : IsComponent name := ⟨hsome, hslash⟩
    exact ⟨isNormal_join hdir hname, splitParent_join hdir hname⟩

theorem normalize_writes_components_of_notes :
    normalize "//home/./notes//" = "/home/./notes" ∧
      (∃ dir name, splitParent "/home/./notes" = (dir, name) ∧ normalize dir = dir ∧
        dir = parent "/home/./notes" ∧ name ≠ "" ∧ '/' ∉ name.toList ∧
        join dir name = "/home/./notes" ∧ components "/home/./notes" = components dir ++ [name]) ∧
      normalize (join "/" "..") = join "/" ".." ∧ splitParent (join "/" "..") = ("/", "..") := by
  obtain ⟨-, -, hsplit, hjoin⟩ := normalize_writes_components
  exact ⟨by decide +kernel, hsplit "/home/./notes" (by decide +kernel) (by decide),
    hjoin "/" ".." (by decide +kernel) (by decide) (by decide)⟩

end ShellTutor.Path

import ShellTutor.Proofs.Path.Spelling

/-!
# Resolving in steps

Resolving walks along a route of components: those of the operand, behind those of the directory
when the operand is not absolute. What the walk ends with are the components of the result, and a
walk along these alone piles them up again. So a path may be resolved in one go or in several steps,
and it comes out the same.
-/

namespace ShellTutor.Path

/-- The components that are walked along from a directory to what an operand names. -/
def route (cwd input : String) : List String :=
  if input.toList.head? = some '/' then components input else components cwd ++ components input

theorem resolve_eq_route (cwd input : String) :
    resolve cwd input = ofComponents ((route cwd input).foldl step []).reverse := by
  rw [route]
  split
  · rename_i habsolute
    exact resolve_of_absolute habsolute cwd
  · rename_i hrelative
    exact resolve_of_not_absolute hrelative cwd

theorem isComponent_of_mem_route {cwd input : String} : ∀ c ∈ route cwd input, IsComponent c := by
  rw [route]
  split
  · exact fun _ => isComponent_of_mem_components
  · exact List.forall_mem_append.mpr
      ⟨fun _ => isComponent_of_mem_components, fun _ => isComponent_of_mem_components⟩

/-- What is left on the stack was kept by every step. -/
theorem isStep_of_mem_stack {cwd input : String} :
    ∀ c ∈ (route cwd input).foldl step [], IsStep c :=
  isStep_of_mem_walk (fun c hc _ => isComponent_of_mem_route c hc) (List.forall_mem_nil IsStep)

theorem components_resolve (cwd input : String) :
    components (resolve cwd input) = ((route cwd input).foldl step []).reverse := by
  rw [resolve_eq_route]
  exact components_ofComponents fun c hc => (isStep_of_mem_stack c (List.mem_reverse.mp hc)).1

/-- What follows a slash is walked along in the end. An operand that starts with it would be
absolute. -/
theorem route_append {input : String} (hne : input ≠ "") (cwd rest : String) :
    route cwd (input ++ "/" ++ rest) = route cwd input ++ components rest := by
  have hhead : (input ++ "/" ++ rest).toList.head? = input.toList.head? := by
    have hchars : input.toList ≠ [] := by rwa [Ne, String.toList_eq_nil_iff]
    obtain ⟨c, cs, hcs⟩ := List.exists_cons_of_ne_nil hchars
    simp [hcs]
  rw [route, route, hhead, components_append_slash]
  split
  · rfl
  · rw [List.append_assoc]

/-- An operand may be resolved in two steps, wherever a slash stands in it but at its start. -/
theorem resolve_resolve (cwd : String) {input rest : String} (hne : input ≠ "")
    (hrest : rest.toList.head? ≠ some '/') :
    resolve (resolve cwd input) rest = resolve cwd (input ++ "/" ++ rest) := by
  -- the second walk starts with the stack on which the first one ended
  have hagain :
      (components (resolve cwd input)).foldl step [] = (route cwd input).foldl step [] := by
    have hsteps : ∀ c ∈ ((route cwd input).foldl step []).reverse, IsStep c :=
      fun c hc => isStep_of_mem_stack c (List.mem_reverse.mp hc)
    rw [components_resolve, foldl_step_of_isStep hsteps, List.reverse_reverse, List.append_nil]
  calc resolve (resolve cwd input) rest
      = ofComponents
          ((components (resolve cwd input) ++ components rest).foldl step []).reverse :=
        resolve_of_not_absolute hrest _
    _ = ofComponents ((route cwd input ++ components rest).foldl step []).reverse := by
        rw [List.foldl_append, hagain, ← List.foldl_append]
    _ = resolve cwd (input ++ "/" ++ rest) := by
        rw [← route_append hne, ← resolve_eq_route]

/-- Where there is no component to take for anything but itself, resolving only joins. -/
theorem resolve_of_plain {cwd input : String} (hrelative : input.toList.head? ≠ some '/')
    (hplain : ∀ c ∈ components cwd ++ components input, c ≠ "." ∧ c ≠ "..") :
    resolve cwd input = normalize (join cwd input) := by
  have hsteps : ∀ c ∈ components cwd ++ components input, IsStep c := by
    intro c hc
    rw [← components_join_append] at hc hplain
    exact ⟨isComponent_of_mem_components hc, hplain c hc⟩
  rw [resolve_of_not_absolute hrelative, foldl_step_of_isStep hsteps, List.append_nil,
    List.reverse_reverse, ← components_join_append, normalize_eq]

/-- Behind its first slash, a resolved path is cut into components that resolving keeps. The root
has nothing there. -/
theorem pieces_resolve (cwd input : String) :
    resolve cwd input = "/" ∨
      ∃ cs, pieces (resolve cwd input) = "" :: cs ∧ ∀ c ∈ cs, c ≠ "" ∧ c ≠ "." ∧ c ≠ ".." := by
  obtain ⟨cs, hcs, heq⟩ := exists_components_resolve cwd input
  rw [heq]
  by_cases hroot : cs = []
  · left
    rw [hroot]
    rfl
  · right
    refine ⟨cs, pieces_ofComponents (isComponent_of_isStep hcs) hroot, fun c hc => ?_⟩
    obtain ⟨⟨hne, -⟩, hdot, hdots⟩ := hcs c hc
    exact ⟨hne, hdot, hdots⟩

/-- Every place has one path. Resolving gives an absolute path in normal form, without empty
components and without `.` and `..`, which is its own resolution from every directory; it comes out
the same in one go and in two steps; and where nothing is `.` or `..`, it is joining. -/
theorem resolve_gives_one_path (cwd input : String) :
    ((resolve cwd input).toList.head? = some '/' ∧
      normalize (resolve cwd input) = resolve cwd input ∧
      (resolve cwd input = "/" ∨
        ∃ cs, pieces (resolve cwd input) = "" :: cs ∧ ∀ c ∈ cs, c ≠ "" ∧ c ≠ "." ∧ c ≠ "..")) ∧
    (∀ dir, resolve dir (resolve cwd input) = resolve cwd input) ∧
    (∀ rest, input ≠ "" → rest.toList.head? ≠ some '/' →
      resolve (resolve cwd input) rest = resolve cwd (input ++ "/" ++ rest)) ∧
    (input.toList.head? ≠ some '/' →
      (∀ c ∈ components cwd ++ components input, c ≠ "." ∧ c ≠ "..") →
      resolve cwd input = normalize (join cwd input)) := by
  have hresolved : IsResolved (resolve cwd input) := isResolved_resolve cwd input
  have hslash : (resolve cwd input).toList.head? = some '/' := by
    rw [resolve_eq_route, toList_ofComponents, List.head?_cons]
  refine ⟨⟨hslash, hresolved.normalize_eq, pieces_resolve cwd input⟩, hresolved.resolve_eq, ?_, ?_⟩
  · exact fun rest hne hrest => resolve_resolve cwd hne hrest
  · exact resolve_of_plain

theorem resolve_gives_one_path_of_notes :
    (resolve (resolve "/home//quest" "docs/..") "./../guest//" =
        resolve "/home//quest" ("docs/.." ++ "/" ++ "./../guest//")) ∧
      resolve "/home//quest" ".hidden//notes/" =
        normalize (join "/home//quest" ".hidden//notes/") := by
  obtain ⟨-, -, hsteps, -⟩ := resolve_gives_one_path "/home//quest" "docs/.."
  obtain ⟨-, -, -, hplain⟩ := resolve_gives_one_path "/home//quest" ".hidden//notes/"
  exact ⟨hsteps "./../guest//" (by decide) (by decide), hplain (by decide) (by decide +kernel)⟩

end ShellTutor.Path

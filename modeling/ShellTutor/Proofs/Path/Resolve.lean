import ShellTutor.Proofs.Path.Components

/-!
# Resolved paths

Resolving walks along the components of a path with a stack. Components other than `.` and `..` are
only pushed, and nothing else is ever left on the stack, so a resolved path is its own resolution,
from whatever directory. One step up with `..` is then the parent directory.
-/

namespace ShellTutor.Path

/-- A component that resolving keeps. -/
def IsStep (s : String) : Prop :=
  IsComponent s ∧ s ≠ "." ∧ s ≠ ".."

/-- A path that resolving leaves as it is. -/
def IsResolved (path : String) : Prop :=
  resolve "/" path = path

/-- Whether a path leads to a directory strictly above another one. -/
def IsAbove (path other : String) : Prop :=
  ∃ below, below ≠ [] ∧ components other = components path ++ below

theorem step_of_isStep {s : String} (h : IsStep s) (stack : List String) :
    step stack s = s :: stack := by
  obtain ⟨⟨hne, -⟩, hdot, hdots⟩ := h
  simp [step, hne, hdot, hdots]

/-- Components that are kept pile up on the stack. -/
theorem foldl_step_of_isStep {cs : List String} (hcs : ∀ c ∈ cs, IsStep c) (stack : List String) :
    cs.foldl step stack = cs.reverse ++ stack := by
  induction cs generalizing stack with
  | nil => rfl
  | cons c cs ih =>
    rw [List.foldl_cons, step_of_isStep (hcs c (List.mem_cons_self ..)),
      ih fun d hd => hcs d (List.mem_cons_of_mem _ hd)]
    simp

/-- Empty pieces, which adjacent slashes make, move nothing. -/
theorem foldl_step_filter (ps stack : List String) :
    (ps.filter (· ≠ "")).foldl step stack = ps.foldl step stack := by
  induction ps generalizing stack with
  | nil => rfl
  | cons p ps ih =>
    by_cases hp : p = ""
    · subst hp
      rw [List.filter_cons_of_neg (by simp), ih, List.foldl_cons]
      simp [step]
    · rw [List.filter_cons_of_pos (by simpa using hp), List.foldl_cons, List.foldl_cons, ih]

theorem isStep_of_mem_walk {ps : List String} (hps : ∀ p ∈ ps, p ≠ "" → IsComponent p)
    {stack : List String} (hstack : ∀ c ∈ stack, IsStep c) :
    ∀ c ∈ ps.foldl step stack, IsStep c := by
  induction ps generalizing stack with
  | nil => exact hstack
  | cons p ps ih =>
    refine ih (fun q hq => hps q (List.mem_cons_of_mem _ hq)) ?_
    intro c hc
    rw [step] at hc
    split at hc
    · exact hstack c hc
    · rename_i hkept
      rw [not_or] at hkept
      split at hc
      · exact hstack c (List.mem_of_mem_tail hc)
      · rename_i hdots
        rcases List.mem_cons.mp hc with rfl | hc
        · exact ⟨hps c (List.mem_cons_self ..) hkept.1, hkept.2, hdots⟩
        · exact hstack c hc

/-- What resolving gives is written with components that it keeps. -/
theorem exists_components_resolve (cwd input : String) :
    ∃ cs, (∀ c ∈ cs, IsStep c) ∧ resolve cwd input = ofComponents cs := by
  refine ⟨_, ?_, rfl⟩
  intro c hc
  exact isStep_of_mem_walk (fun _ h hne => isComponent_of_mem_pieces h hne) (by simp) c
    (List.mem_reverse.mp hc)

theorem resolve_of_absolute {input : String} (h : input.toList.head? = some '/') (cwd : String) :
    resolve cwd input = ofComponents ((components input).foldl step []).reverse := by
  rw [resolve, if_pos h, components, foldl_step_filter]

section Components

variable {cs : List String} (hcs : ∀ c ∈ cs, IsStep c)
include hcs

theorem isComponent_of_isStep : ∀ c ∈ cs, IsComponent c :=
  fun c hc => (hcs c hc).1

/-- A path that is written with such components is its own resolution. -/
theorem resolve_ofComponents (cwd : String) :
    resolve cwd (ofComponents cs) = ofComponents cs := by
  rw [resolve_of_absolute (by simp [toList_ofComponents]),
    components_ofComponents (isComponent_of_isStep hcs), foldl_step_of_isStep hcs]
  simp

end Components

theorem isResolved_resolve (cwd input : String) : IsResolved (resolve cwd input) := by
  obtain ⟨cs, hcs, heq⟩ := exists_components_resolve cwd input
  rw [IsResolved, heq, resolve_ofComponents hcs]

namespace IsResolved

variable {path : String} (h : IsResolved path)
include h

theorem exists_components : ∃ cs, (∀ c ∈ cs, IsStep c) ∧ path = ofComponents cs := by
  obtain ⟨cs, hcs, heq⟩ := exists_components_resolve "/" path
  exact ⟨cs, hcs, h.symm.trans heq⟩

/-- It is left as it is from every directory. -/
theorem resolve_eq (cwd : String) : resolve cwd path = path := by
  obtain ⟨cs, hcs, rfl⟩ := h.exists_components
  exact resolve_ofComponents hcs cwd

theorem isNormal : IsNormal path := by
  obtain ⟨cs, hcs, rfl⟩ := h.exists_components
  exact isNormal_ofComponents (isComponent_of_isStep hcs)

theorem normalize_eq : normalize path = path :=
  h.isNormal

/-- A resolved path other than the root is a name in a resolved directory. -/
theorem exists_join (hne : path ≠ "/") :
    ∃ dir name, IsResolved dir ∧ IsStep name ∧ path = join dir name := by
  obtain ⟨cs, hcs, rfl⟩ := h.exists_components
  rcases List.eq_nil_or_concat cs with rfl | ⟨init, name, rfl⟩
  · exact absurd (by simp [ofComponents]) hne
  · rw [List.concat_eq_append] at hcs ⊢
    have hinit : ∀ c ∈ init, IsStep c := fun c hc => hcs c (List.mem_append_left _ hc)
    exact ⟨ofComponents init, name, resolve_ofComponents hinit "/",
      hcs name (List.mem_append_right _ (List.mem_singleton.mpr rfl)),
      (join_ofComponents (isComponent_of_isStep hinit) name).symm⟩

end IsResolved

theorem isResolved_root : IsResolved "/" := by
  have h := resolve_ofComponents (List.forall_mem_nil IsStep) "/"
  simpa [ofComponents, IsResolved] using h

theorem resolve_root (cwd : String) : resolve cwd "/" = "/" :=
  isResolved_root.resolve_eq cwd

/-- From a directory below the root, `..` leads to the directory that it lies in. -/
theorem resolve_dotdot_join {dir name : String} (hdir : IsResolved dir) (hname : IsStep name) :
    resolve (join dir name) ".." = dir := by
  obtain ⟨cs, hcs, rfl⟩ := hdir.exists_components
  have hall : ∀ c ∈ cs ++ [name], IsStep c :=
    List.forall_mem_append.mpr ⟨hcs, List.forall_mem_singleton.mpr hname⟩
  have hdots : IsComponent ".." := ⟨by decide, by decide⟩
  have hmore : ∀ c ∈ (cs ++ [name]) ++ [".."], IsComponent c :=
    List.forall_mem_append.mpr ⟨isComponent_of_isStep hall, List.forall_mem_singleton.mpr hdots⟩
  have hpieces : ((pieces (ofComponents ((cs ++ [name]) ++ [".."]))).foldl step []).reverse = cs := by
    rw [pieces_ofComponents hmore (by simp), List.foldl_cons, List.foldl_append,
      foldl_step_of_isStep hall]
    simp [step]
  rw [join_ofComponents (isComponent_of_isStep hcs), resolve, if_neg (by decide),
    join_ofComponents (isComponent_of_isStep hall), hpieces]

/-- At the root, `..` leads nowhere else. -/
theorem resolve_dotdot_root : resolve "/" ".." = "/" := by
  decide +kernel

theorem components_join {dir name : String} (hdir : IsNormal dir) (hname : IsComponent name) :
    components (join dir name) = components dir ++ [name] := by
  obtain ⟨cs, hcs, rfl⟩ := hdir.exists_components
  have hall : ∀ c ∈ cs ++ [name], IsComponent c :=
    List.forall_mem_append.mpr ⟨hcs, List.forall_mem_singleton.mpr hname⟩
  rw [join_ofComponents hcs, components_ofComponents hall, components_ofComponents hcs]

theorem isAbove_join {dir name : String} (hdir : IsNormal dir) (hname : IsComponent name) :
    IsAbove dir (join dir name) :=
  ⟨[name], by simp, components_join hdir hname⟩

theorem not_isAbove_self (path : String) : ¬ IsAbove path path := by
  rintro ⟨below, hne, heq⟩
  exact hne (by simpa using heq)

/-- A directory above another is the root, or the other path goes on behind it with a slash. -/
theorem IsAbove.root_or_isPrefixOf {path other : String} (h : IsAbove path other)
    (hpath : IsNormal path) (hother : IsNormal other) :
    path = "/" ∨ (path ++ "/").toList.isPrefixOf other.toList = true := by
  obtain ⟨below, hne, heq⟩ := h
  by_cases hroot : components path = []
  · left
    rw [← hpath.ofComponents_eq, hroot]
    simp [ofComponents]
  · right
    have hwritten : path ++ "/" ++ "/".intercalate below = other :=
      calc path ++ "/" ++ "/".intercalate below
          = ofComponents (components path) ++ "/" ++ "/".intercalate below :=
            congrArg (· ++ "/" ++ "/".intercalate below) hpath.ofComponents_eq.symm
        _ = ofComponents (components path ++ below) := by
            rw [ofComponents, ofComponents, String.intercalate_append_of_ne_nil hroot hne]
            simp [String.append_assoc]
        _ = other := by rw [← heq]; exact hother.ofComponents_eq
    rw [List.isPrefixOf_iff_prefix, ← hwritten]
    exact ⟨("/".intercalate below).toList, String.toList_append.symm⟩

end ShellTutor.Path

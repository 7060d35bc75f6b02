import Mathlib.Data.List.Basic
import ShellTutor.Path
import ShellTutor.Proofs.Text.Split

/-!
# Writing a path anew

A path that passes the test for normal form is left as it is; any other is written anew in one pass.
Both come to the same text, the components of the path with a slash before each: writing anew keeps
the components, what it writes passes the test, and a path that passes it is written in just that
way. So the test accepts exactly the paths that writing anew would not change.
-/

namespace ShellTutor.Path

theorem components_eq_runs (path : String) :
    components path = (Text.runs (· == '/') path.toList).map String.ofList := by
  have hempty (cs : List Char) : decide (String.ofList cs ≠ "") = !cs.isEmpty := by
    cases cs <;> simp
  rw [components, pieces, List.filter_map, Text.runs]
  congr 1
  exact List.filter_congr fun cs _ => hempty cs

theorem toList_ofComponents (cs : List String) :
    (ofComponents cs).toList = '/' :: ['/'].intercalate (cs.map String.toList) := by
  simp [ofComponents]

private theorem runs_append_slash (xs ys : List Char) :
    Text.runs (· == '/') (xs ++ '/' :: ys) =
      Text.runs (· == '/') xs ++ Text.runs (· == '/') ys :=
  Text.runs_append_sep (by simp) xs ys

private theorem runs_slash (cs : List Char) :
    Text.runs (· == '/') ('/' :: cs) = Text.runs (· == '/') cs :=
  runs_append_slash [] cs

/-- Slashes in a row stand between the same components as one of them does. The induction goes along
the text, with the component that is being read in front of what is left. -/
theorem runs_squeeze (word : List Char) (hword : '/' ∉ word) (cs : List Char) :
    Text.runs (· == '/') (word ++ squeeze word.isEmpty cs) = Text.runs (· == '/') (word ++ cs) := by
  induction cs generalizing word with
  | nil => simp [squeeze]
  | cons c cs ih =>
    by_cases hc : c = '/'
    · subst hc
      have hrest : Text.runs (· == '/') (squeeze true cs) = Text.runs (· == '/') cs :=
        ih [] List.not_mem_nil
      rw [squeeze, if_pos rfl, runs_append_slash]
      cases word with
      | nil =>
        rw [List.isEmpty_nil, if_pos rfl, List.nil_append, hrest, Text.runs_nil, List.nil_append]
      | cons d word =>
        rw [List.isEmpty_cons, if_neg Bool.false_ne_true, runs_append_slash, hrest]
    · have hnext := ih (word ++ [c]) (by simp [hword, Ne.symm hc])
      have hsome : (word ++ [c]).isEmpty = false := by simp
      rw [hsome, List.append_assoc, List.append_assoc, List.singleton_append,
        List.singleton_append] at hnext
      rw [squeeze, if_neg hc, hnext]

theorem hasFinalSlash_iff {cs : List Char} :
    hasFinalSlash cs = true ↔ ∃ kept, kept ≠ [] ∧ cs = kept ++ ['/'] := by
  rw [hasFinalSlash, Bool.and_eq_true, decide_eq_true_eq, beq_iff_eq, List.getLast?_eq_some_iff]
  constructor
  · rintro ⟨hlength, kept, rfl⟩
    refine ⟨kept, ?_, rfl⟩
    rintro rfl
    exact absurd hlength (by decide)
  · rintro ⟨kept, hne, rfl⟩
    have hpos := List.length_pos_iff.mpr hne
    exact ⟨by rw [List.length_append, List.length_singleton]; omega, kept, rfl⟩

/-- What is written is either all that was read, with single slashes, or that without a slash at its
end. -/
theorem rebuild_cases (path : String) :
    (hasFinalSlash ('/' :: squeeze true path.toList) = false ∧
        (rebuild path).toList = '/' :: squeeze true path.toList) ∨
      (rebuild path).toList ≠ [] ∧
        (rebuild path).toList ++ ['/'] = '/' :: squeeze true path.toList := by
  rw [rebuild, String.toList_ofList]
  generalize '/' :: squeeze true path.toList = built
  cases hfinal : hasFinalSlash built with
  | false => exact Or.inl ⟨rfl, if_neg Bool.false_ne_true⟩
  | true =>
    obtain ⟨kept, hne, rfl⟩ := hasFinalSlash_iff.mp hfinal
    rw [if_pos rfl, List.dropLast_concat]
    exact Or.inr ⟨hne, rfl⟩

/-- Writing a path anew keeps its components. -/
theorem components_rebuild (path : String) : components (rebuild path) = components path := by
  have hbuilt : Text.runs (· == '/') ('/' :: squeeze true path.toList) =
      Text.runs (· == '/') path.toList :=
    (runs_slash _).trans (runs_squeeze [] List.not_mem_nil path.toList)
  rw [components_eq_runs, components_eq_runs, ← hbuilt]
  rcases rebuild_cases path with ⟨-, hall⟩ | ⟨-, hall⟩
  · rw [hall]
  · rw [← hall, runs_append_slash, Text.runs_nil, List.append_nil]

/-- No two slashes stand in a row, and none behind one that was read last. -/
theorem not_infix_squeeze (slash : Bool) (cs : List Char) :
    ¬ ['/', '/'] <:+: (if slash then ['/'] else []) ++ squeeze slash cs := by
  induction cs generalizing slash with
  | nil => cases slash <;> simp [squeeze, List.infix_cons_iff]
  | cons c cs ih =>
    have hslash := ih true
    have hother := ih false
    rw [if_pos rfl, List.singleton_append] at hslash
    rw [if_neg Bool.false_ne_true, List.nil_append] at hother
    by_cases hc : c = '/'
    · cases slash <;> simpa [squeeze, hc] using hslash
    · cases slash <;> simp [squeeze, hc, Ne.symm hc, List.infix_cons_iff, hother]

/-- What the test asks for. -/
theorem isNormalized_iff (path : String) :
    isNormalized path = true ↔
      path.toList.head? = some '/' ∧ hasFinalSlash path.toList = false ∧
        ¬ ['/', '/'] <:+: path.toList := by
  rw [isNormalized, Text.occurs, ← Text.occursIn_iff]
  simp [and_assoc]

/-- What is written anew is spelled in normal form. -/
theorem isNormalized_rebuild (path : String) : isNormalized (rebuild path) = true := by
  have hsingle : ¬ ['/', '/'] <:+: '/' :: squeeze true path.toList :=
    not_infix_squeeze true path.toList
  rw [isNormalized_iff]
  rcases rebuild_cases path with ⟨hfinal, hall⟩ | ⟨hne, hall⟩
  · rw [hall]
    exact ⟨rfl, hfinal, hsingle⟩
  · rw [← hall] at hsingle
    refine ⟨?_, Bool.eq_false_iff.mpr fun hfinal => hsingle ?_, fun hdouble =>
      hsingle (hdouble.trans (List.prefix_append _ _).isInfix)⟩
    · obtain ⟨c, cs, hcs⟩ := List.exists_cons_of_ne_nil hne
      rw [hcs, List.cons_append] at hall
      rw [hcs, (List.cons.inj hall).1, List.head?_cons]
    · -- a second slash at the end would stand in a row with the first
      obtain ⟨kept, -, heq⟩ := hasFinalSlash_iff.mp hfinal
      rw [heq]
      exact ⟨kept, [], by simp⟩

/-- An empty piece comes of a slash at the end, or of one behind a slash that stands in front. -/
theorem nil_not_mem_splitOn {cs : List Char} (hne : cs ≠ []) (hfinal : cs.getLast? ≠ some '/')
    (hsingle : ¬ ['/', '/'] <:+: '/' :: cs) : [] ∉ cs.splitOn '/' := by
  intro hmem
  obtain ⟨before, after, hsplit⟩ := List.append_of_mem hmem
  have hcs : ['/'].intercalate (before ++ [] :: after) = cs := by
    rw [← hsplit, List.intercalate_splitOn]
  by_cases hafter : after = []
  · by_cases hbefore : before = []
    · exact hne (by rw [← hcs, hbefore, hafter]; rfl)
    · rw [hafter, Text.intercalate_append hbefore (List.cons_ne_nil _ _)] at hcs
      exact hfinal (by rw [← hcs]; simp)
  · rw [List.append_cons, Text.intercalate_append (by simp) hafter] at hcs
    by_cases hbefore : before = []
    · rw [← hcs, hbefore] at hsingle
      exact hsingle (List.prefix_append _ _).isInfix
    · rw [Text.intercalate_append hbefore (List.cons_ne_nil _ _)] at hcs
      refine hsingle ⟨'/' :: ['/'].intercalate before, ['/'].intercalate after, ?_⟩
      rw [← hcs]
      simp

/-- A path that passes the test is its components with a slash before each. -/
theorem ofComponents_of_isNormalized {path : String} (h : isNormalized path = true) :
    ofComponents (components path) = path := by
  obtain ⟨hhead, hfinal, hsingle⟩ := (isNormalized_iff path).mp h
  obtain ⟨cs, hcs⟩ := List.head?_eq_some_iff.mp hhead
  rw [hcs] at hfinal hsingle
  rw [← String.toList_inj, toList_ofComponents, components_eq_runs, hcs, runs_slash, List.map_map]
  have hchars : String.toList ∘ String.ofList = id := by
    funext chars
    exact String.toList_ofList
  rw [hchars, List.map_id]
  congr 1
  by_cases hroot : cs = []
  · rw [hroot, Text.runs_nil, List.intercalate_nil]
  · have hlast : cs.getLast? ≠ some '/' := by
      intro hlast
      obtain ⟨kept, rfl⟩ := List.getLast?_eq_some_iff.mp hlast
      exact Bool.eq_false_iff.mp hfinal
        (hasFinalSlash_iff.mpr ⟨'/' :: kept, List.cons_ne_nil _ _, rfl⟩)
    have hpieces : Text.runs (· == '/') cs = cs.splitOn '/' := by
      refine List.filter_eq_self.mpr fun piece hpiece => ?_
      have hsome : piece ≠ [] := fun hnil => nil_not_mem_splitOn hroot hlast hsingle (hnil ▸ hpiece)
      simpa using hsome
    rw [hpieces, List.intercalate_splitOn]

theorem rebuild_eq (path : String) : rebuild path = ofComponents (components path) := by
  rw [← components_rebuild, ofComponents_of_isNormalized (isNormalized_rebuild path)]

/-- The normal form of a path is its components with a slash before each. -/
theorem normalize_eq (path : String) : normalize path = ofComponents (components path) := by
  rw [normalize]
  split
  · rename_i htest
    exact (ofComponents_of_isNormalized htest).symm
  · exact rebuild_eq path

/-- The test accepts just the paths that are their own normal form. -/
theorem isNormalized_iff_normalize_eq (path : String) :
    isNormalized path = true ↔ normalize path = path := by
  constructor
  · intro htest
    rw [normalize, if_pos htest]
  · intro hsame
    rw [← hsame, normalize_eq, ← rebuild_eq]
    exact isNormalized_rebuild path

end ShellTutor.Path

import Mathlib.Data.List.TakeWhile
import ShellTutor.Text.Blank
import ShellTutor.Text.Search

/-!
# Pieces, words and trimming

What is true of every piece into which a text is cut at separators: it holds none of them, and it
stands in the text either at the very start or directly behind one. A cut at the first separator
alone is undone by putting the separator back. Words are the pieces that are not empty, so a text's
words are those of its parts on either side of a blank. A text whose two ends are not blank is what
trimming it gives.
-/

namespace ShellTutor.Text

variable {α : Type _} {p : α → Bool}

/-- The first piece is where the text starts, and each other piece follows a separator. -/
private theorem splitOnP_places (xs : List α) :
    ∃ first rest, xs.splitOnP p = first :: rest ∧ (∃ after, xs = first ++ after) ∧
      ∀ piece ∈ rest, ∃ before sep after, p sep = true ∧ xs = before ++ sep :: piece ++ after := by
  induction xs with
  | nil => exact ⟨[], [], rfl, ⟨[], rfl⟩, by simp⟩
  | cons x xs ih =>
    obtain ⟨first, rest, heq, ⟨after, hfirst⟩, hrest⟩ := ih
    rw [List.splitOnP_cons_eq_if_modifyHead, heq]
    by_cases hx : p x = true
    · refine ⟨[], first :: rest, by simp [hx], ⟨x :: xs, rfl⟩, ?_⟩
      intro piece hmem
      rcases List.mem_cons.mp hmem with rfl | hmem
      · exact ⟨[], x, after, hx, by simp [hfirst]⟩
      · obtain ⟨before, sep, after, hsep, hxs⟩ := hrest piece hmem
        exact ⟨x :: before, sep, after, hsep, by simp [hxs]⟩
    · refine ⟨x :: first, rest, by simp [hx], ⟨after, by simp [hfirst]⟩, ?_⟩
      intro piece hmem
      obtain ⟨before, sep, after, hsep, hxs⟩ := hrest piece hmem
      exact ⟨x :: before, sep, after, hsep, by simp [hxs]⟩

/-- Each piece stands at the start of the text or behind a separator. -/
theorem mem_splitOnP_place {xs piece : List α} (h : piece ∈ xs.splitOnP p) :
    ∃ before after, xs = before ++ piece ++ after ∧ ∀ sep ∈ before.getLast?, p sep = true := by
  obtain ⟨first, rest, heq, ⟨after, hfirst⟩, hrest⟩ := splitOnP_places (p := p) xs
  rw [heq] at h
  rcases List.mem_cons.mp h with rfl | h
  · exact ⟨[], after, by simpa using hfirst, by simp⟩
  · obtain ⟨before, sep, after, hsep, hxs⟩ := hrest piece h
    exact ⟨before ++ [sep], after, by simp [hxs], by simpa using hsep⟩

theorem not_sep_of_mem_splitOnP {xs piece : List α} (h : piece ∈ xs.splitOnP p) :
    ∀ c ∈ piece, p c = false := by
  induction xs generalizing piece with
  | nil =>
    rw [List.splitOnP_nil, List.mem_singleton] at h
    simp [h]
  | cons x xs ih =>
    obtain ⟨first, rest, heq, -⟩ := splitOnP_places (p := p) xs
    rw [List.splitOnP_cons_eq_if_modifyHead, heq] at h
    rw [heq] at ih
    by_cases hx : p x = true
    · rw [if_pos hx, List.mem_cons] at h
      rcases h with rfl | h
      · simp
      · exact ih h
    · rw [if_neg hx, List.modifyHead_cons, List.mem_cons] at h
      rcases h with rfl | h
      · intro c hc
        rcases List.mem_cons.mp hc with rfl | hc
        · simpa using hx
        · exact ih (List.mem_cons_self ..) c hc
      · exact ih (List.mem_cons_of_mem _ h)

theorem not_mem_of_mem_splitOn [BEq α] [LawfulBEq α] {x : α} {xs piece : List α}
    (h : piece ∈ xs.splitOn x) : x ∉ piece := by
  intro hx
  have hsep := not_sep_of_mem_splitOnP h x hx
  simp at hsep

section Once

variable {c : Char} {cs before after : List Char}

theorem splitOnce_append (hbefore : c ∉ before) (after : List Char) :
    splitOnce c (before ++ c :: after) = some (before, after) := by
  have hother : ∀ d ∈ before, (d != c) = true := fun d hd => by
    rw [bne_iff_ne]
    rintro rfl
    exact hbefore hd
  rw [splitOnce, List.dropWhile_append_of_pos hother, List.takeWhile_append_of_pos hother]
  simp

theorem splitOnce_eq_none_iff : splitOnce c cs = none ↔ c ∉ cs := by
  constructor
  · intro hnone hmem
    obtain ⟨before, after, rfl, hbefore⟩ := List.eq_append_cons_of_mem hmem
    rw [splitOnce_append hbefore] at hnone
    cases hnone
  · intro hmissing
    have hall : ∀ d ∈ cs, (d != c) = true := fun d hd => by
      rw [bne_iff_ne]
      rintro rfl
      exact hmissing hd
    rw [splitOnce, List.dropWhile_eq_nil_iff.mpr hall]

theorem splitOnce_eq_some_iff :
    splitOnce c cs = some (before, after) ↔ cs = before ++ c :: after ∧ c ∉ before := by
  constructor
  · intro hcut
    have hmem : c ∈ cs := Decidable.byContradiction fun hmissing => by
      rw [splitOnce_eq_none_iff.mpr hmissing] at hcut
      cases hcut
    obtain ⟨front, back, rfl, hfront⟩ := List.eq_append_cons_of_mem hmem
    rw [splitOnce_append hfront, Option.some.injEq, Prod.mk.injEq] at hcut
    obtain ⟨rfl, rfl⟩ := hcut
    exact ⟨rfl, hfront⟩
  · rintro ⟨rfl, hbefore⟩
    exact splitOnce_append hbefore after

end Once

variable {sep : Char → Bool}

theorem runs_nil : runs sep [] = [] := rfl

theorem runs_append_sep {c : Char} (hc : sep c = true) (xs ys : List Char) :
    runs sep (xs ++ c :: ys) = runs sep xs ++ runs sep ys := by
  rw [runs, List.splitOnP_append_cons xs ys hc, List.filter_append]
  rfl

theorem runs_append_left {pad : List Char} (hpad : ∀ c ∈ pad, sep c = true) (xs : List Char) :
    runs sep (pad ++ xs) = runs sep xs := by
  induction pad with
  | nil => rfl
  | cons c pad ih =>
    have hrest := ih fun d hd => hpad d (List.mem_cons_of_mem _ hd)
    have hcut := runs_append_sep (hpad c (List.mem_cons_self ..)) [] (pad ++ xs)
    simpa [runs_nil, hrest] using hcut

theorem runs_eq_nil {pad : List Char} (hpad : ∀ c ∈ pad, sep c = true) : runs sep pad = [] := by
  simpa [runs_nil] using runs_append_left hpad []

theorem runs_append_right {pad : List Char} (hpad : ∀ c ∈ pad, sep c = true) (xs : List Char) :
    runs sep (xs ++ pad) = runs sep xs := by
  cases pad with
  | nil => simp
  | cons c pad =>
    rw [runs_append_sep (hpad c (List.mem_cons_self ..)),
      runs_eq_nil fun d hd => hpad d (List.mem_cons_of_mem _ hd), List.append_nil]

theorem runs_eq_singleton {xs : List Char} (hne : xs ≠ []) (hxs : ∀ c ∈ xs, sep c = false) :
    runs sep xs = [xs] := by
  rw [runs, List.splitOnP_eq_singleton hxs]
  simp [hne]

theorem mem_runs {xs run : List Char} (h : run ∈ runs sep xs) :
    run ∈ xs.splitOnP sep ∧ run ≠ [] ∧ ∀ c ∈ run, sep c = false := by
  obtain ⟨hmem, hne⟩ := List.mem_filter.mp h
  exact ⟨hmem, by simpa using hne, not_sep_of_mem_splitOnP hmem⟩

theorem runs_intercalate {c : Char} (hc : sep c = true) {xss : List (List Char)}
    (hxss : ∀ xs ∈ xss, xs ≠ [] ∧ ∀ d ∈ xs, sep d = false) :
    runs sep ([c].intercalate xss) = xss := by
  induction xss with
  | nil => simp [runs_nil]
  | cons xs xss ih =>
    obtain ⟨hne, hplain⟩ := hxss xs (List.mem_cons_self ..)
    have hrest := ih fun ys hys => hxss ys (List.mem_cons_of_mem _ hys)
    cases xss with
    | nil => simpa using runs_eq_singleton hne hplain
    | cons ys xss =>
      rw [List.intercalate_cons_cons, List.append_assoc, List.singleton_append,
        runs_append_sep hc, runs_eq_singleton hne hplain, hrest]
      rfl

/-- What holds of the parts, and of two texts with `mid` between them when it holds of both, holds
of the parts written one after the other with `mid` between each two. -/
theorem intercalate_induction {P : List Char → Prop} {mid : List Char}
    (hjoin : ∀ xs ys, P xs → P ys → P (xs ++ mid ++ ys)) {xss : List (List Char)} (hne : xss ≠ [])
    (hxss : ∀ xs ∈ xss, P xs) : P (mid.intercalate xss) := by
  induction xss with
  | nil => exact absurd rfl hne
  | cons xs xss ih =>
    have hxs := hxss xs (List.mem_cons_self ..)
    cases xss with
    | nil => simpa using hxs
    | cons ys xss =>
      rw [List.intercalate_cons_cons]
      exact hjoin _ _ hxs (ih (by simp) fun zs hzs => hxss zs (List.mem_cons_of_mem _ hzs))

theorem intercalate_append {xss yss : List (List Char)} (hxss : xss ≠ []) (hyss : yss ≠ [])
    (mid : List Char) :
    mid.intercalate (xss ++ yss) = mid.intercalate xss ++ mid ++ mid.intercalate yss := by
  induction xss with
  | nil => exact absurd rfl hxss
  | cons xs xss ih =>
    cases xss with
    | nil => rw [List.singleton_append, List.intercalate_cons_of_ne_nil hyss,
        List.intercalate_singleton]
    | cons ys xss =>
      rw [List.cons_append, List.intercalate_cons_of_ne_nil (by simp), ih (by simp),
        List.intercalate_cons_cons]
      simp only [List.append_assoc]

/-- A text that is not empty and neither starts nor ends with a blank. -/
structure Trimmed (cs : List Char) : Prop where
  ne_nil : cs ≠ []
  head : ∀ c ∈ cs.head?, isBlank c = false
  last : ∀ c ∈ cs.getLast?, isBlank c = false

instance (cs : List Char) : Decidable (Trimmed cs) :=
  decidable_of_iff
    (cs ≠ [] ∧ cs.head?.all (!isBlank ·) = true ∧ cs.getLast?.all (!isBlank ·) = true)
    ⟨fun ⟨hne, hhead, hlast⟩ => ⟨hne, by simpa [Option.all_eq_true] using hhead,
        by simpa [Option.all_eq_true] using hlast⟩,
      fun h => ⟨h.ne_nil, by simpa [Option.all_eq_true] using h.head,
        by simpa [Option.all_eq_true] using h.last⟩⟩

theorem Trimmed.append {xs ys : List Char} (hxs : Trimmed xs) (mid : List Char) (hys : Trimmed ys) :
    Trimmed (xs ++ mid ++ ys) where
  ne_nil := by simp [hxs.ne_nil]
  head := by
    obtain ⟨x, xs, rfl⟩ := List.exists_cons_of_ne_nil hxs.ne_nil
    simpa using hxs.head
  last := by
    intro c hc
    rw [List.getLast?_append, List.getLast?_eq_some_getLast hys.ne_nil, Option.some_or,
      ← List.getLast?_eq_some_getLast hys.ne_nil] at hc
    exact hys.last c hc

theorem trimmed_of_plain {cs : List Char} (hne : cs ≠ []) (hcs : ∀ c ∈ cs, isBlank c = false) :
    Trimmed cs where
  ne_nil := hne
  head := fun c hc => hcs c (List.mem_of_mem_head? hc)
  last := fun c hc => hcs c (List.mem_of_mem_getLast? hc)

theorem dropWhile_append_of_head? {back : List α} (hback : ∀ x ∈ back.head?, p x = false)
    (front : List α) : (front ++ back).dropWhile p = front.dropWhile p ++ back := by
  induction front with
  | nil =>
    cases back with
    | nil => rfl
    | cons x back => exact List.dropWhile_cons_of_neg (by simpa using hback x rfl)
  | cons x front ih => by_cases hx : p x = true <;> simp [hx, ih]

theorem takeWhile_append_of_head? {back : List α} (hback : ∀ x ∈ back.head?, p x = false)
    (front : List α) : (front ++ back).takeWhile p = front.takeWhile p := by
  induction front with
  | nil =>
    cases back with
    | nil => rfl
    | cons x back => exact List.takeWhile_cons_of_neg (by simpa using hback x rfl)
  | cons x front ih => by_cases hx : p x = true <;> simp [hx, ih]

/-- Trimming goes up to a part of a text that neither starts nor ends with a blank. -/
theorem toList_trim_append {mid : List Char} (h : Trimmed mid) (front back : List Char) :
    (trim (String.ofList (front ++ (mid ++ back)))).toList =
      front.dropWhile isBlank ++ (mid ++ dropEndWhile isBlank back) := by
  have hstart : ∀ c ∈ (mid ++ back).head?, isBlank c = false := by
    obtain ⟨c, mid, rfl⟩ := List.exists_cons_of_ne_nil h.ne_nil
    exact h.head
  have hend : ∀ c ∈ (mid.reverse ++ (front.dropWhile isBlank).reverse).head?,
      isBlank c = false := by
    intro c hc
    rw [List.head?_append, List.head?_reverse, List.getLast?_eq_some_getLast h.ne_nil,
      Option.some_or, ← List.getLast?_eq_some_getLast h.ne_nil] at hc
    exact h.last c hc
  rw [trim, String.toList_ofList, String.toList_ofList, dropWhile_append_of_head? hstart,
    dropEndWhile, ← List.append_assoc, List.reverse_append, List.reverse_append,
    dropWhile_append_of_head? hend, dropEndWhile]
  simp only [List.reverse_append, List.reverse_reverse, List.append_assoc]

theorem trim_of_trimmed {s : String} (h : Trimmed s.toList) : trim s = s := by
  have hwhole := toList_trim_append h [] []
  rw [List.append_nil, List.nil_append, String.ofList_toList] at hwhole
  exact String.toList_inj.mp (hwhole.trans (List.append_nil _))

theorem not_isBlank_of_getLast?_trim {s : String} {c : Char} (h : c ∈ (trim s).toList.getLast?) :
    isBlank c = false := by
  rw [trim, String.toList_ofList, dropEndWhile, List.getLast?_reverse] at h
  have hhead := List.head?_dropWhile_not isBlank (s.toList.dropWhile isBlank).reverse
  rw [Option.mem_def.mp h] at hhead
  simpa using hhead

theorem trim_eq_empty {s : String} (h : ∀ c ∈ s.toList, isBlank c = true) : trim s = "" := by
  rw [trim, List.dropWhile_eq_nil_iff.mpr h]
  rfl

theorem Trimmed.not_all_isBlank {cs : List Char} (h : Trimmed cs) : cs.all isBlank = false := by
  obtain ⟨c, cs, rfl⟩ := List.exists_cons_of_ne_nil h.ne_nil
  simp [h.head c rfl]

end ShellTutor.Text

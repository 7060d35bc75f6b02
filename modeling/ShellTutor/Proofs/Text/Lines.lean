import Mathlib.Data.List.Infix
import ShellTutor.Proofs.Text.Split
import ShellTutor.Text.Lines

/-!
# Taking lines apart and joining them

Joining the lines of a text does not give every text back. What ends a line is told from the text
around it: a carriage return goes with the line feed behind it, and a line feed that ends the text
is no place where two lines meet. These are lost, and nothing else is. For the same reason a list
of lines that is joined does not always come back: an empty line at its end is taken for the end of
the line before it, and a carriage return at the end of a line for a part of the line feed.
-/

namespace ShellTutor.Text

/-- A text without the carriage returns that stand directly before a line feed. -/
def withoutReturns : List Char → List Char
  | [] => []
  | c :: cs => if c = '\r' ∧ cs.head? = some '\n' then withoutReturns cs else c :: withoutReturns cs

/-- A text without the line feed that ends it. -/
def withoutFinalFeed (cs : List Char) : List Char :=
  if cs.getLast? = some '\n' then cs.dropLast else cs

/-- A text that its lines give back: it does not end in a line feed, and no carriage return stands
before one. -/
structure GivenBack (cs : List Char) : Prop where
  last : cs.getLast? ≠ some '\n'
  returns : ¬ ['\r', '\n'] <:+: cs

instance (cs : List Char) : Decidable (GivenBack cs) :=
  decidable_of_iff (cs.getLast? ≠ some '\n' ∧ ¬ ['\r', '\n'] <:+: cs)
    ⟨fun h => ⟨h.1, h.2⟩, fun h => ⟨h.last, h.returns⟩⟩

theorem withoutReturns_sublist (cs : List Char) : (withoutReturns cs).Sublist cs := by
  induction cs with
  | nil => exact List.Sublist.refl _
  | cons c cs ih =>
    rw [withoutReturns]
    split
    · exact ih.cons c
    · exact ih.cons_cons c

theorem withoutFinalFeed_sublist (cs : List Char) : (withoutFinalFeed cs).Sublist cs := by
  rw [withoutFinalFeed]
  split
  · exact List.dropLast_sublist cs
  · exact List.Sublist.refl _

theorem return_feed_prefix_iff {c : Char} {cs : List Char} :
    ['\r', '\n'] <+: c :: cs ↔ c = '\r' ∧ cs.head? = some '\n' := by
  cases cs <;> simp [List.cons_prefix_cons, eq_comm]

theorem withoutReturns_eq_self_iff {cs : List Char} :
    withoutReturns cs = cs ↔ ¬ ['\r', '\n'] <:+: cs := by
  induction cs with
  | nil => simp [withoutReturns]
  | cons c cs ih =>
    rw [withoutReturns, List.infix_cons_iff, return_feed_prefix_iff]
    split
    · rename_i hend
      have hshorter := (withoutReturns_sublist cs).length_le
      refine iff_of_false (fun hsame => ?_) (fun hnone => hnone (Or.inl hend))
      rw [hsame, List.length_cons] at hshorter
      omega
    · rename_i hkeep
      rw [List.cons_inj_right, ih, or_iff_right hkeep]

theorem withoutFinalFeed_eq_self_iff {cs : List Char} :
    withoutFinalFeed cs = cs ↔ cs.getLast? ≠ some '\n' := by
  rw [withoutFinalFeed]
  split
  · rename_i hlast
    refine iff_of_false (fun hsame => ?_) (fun hother => hother hlast)
    have hne : cs ≠ [] := by
      rintro rfl
      cases hlast
    have hshorter := congrArg List.length hsame
    rw [List.length_dropLast] at hshorter
    have hpos := List.length_pos_iff.mpr hne
    omega
  · rename_i hlast
    exact iff_of_true rfl hlast

/-- What is lost is lost from a part of the text, so a text that comes back whole lost nothing on
the way. -/
theorem eq_self_iff_givenBack {cs : List Char} :
    withoutFinalFeed (withoutReturns cs) = cs ↔ GivenBack cs := by
  constructor
  · intro hback
    have hlonger := (withoutFinalFeed_sublist (withoutReturns cs)).length_le
    rw [hback] at hlonger
    have hreturns := (withoutReturns_sublist cs).eq_of_length_le hlonger
    rw [hreturns] at hback
    exact ⟨withoutFinalFeed_eq_self_iff.mp hback, withoutReturns_eq_self_iff.mp hreturns⟩
  · rintro ⟨hlast, hreturns⟩
    rw [withoutReturns_eq_self_iff.mpr hreturns, withoutFinalFeed_eq_self_iff.mpr hlast]

/-- A text is a line that no line feed ends, or a line with the line feed that ends it and a
further text. -/
theorem lines_induction {P : List Char → Prop} (last : ∀ line, '\n' ∉ line → P line)
    (more : ∀ line rest, '\n' ∉ line → P rest → P (line ++ '\n' :: rest)) (cs : List Char) :
    P cs := by
  by_cases hfeed : '\n' ∈ cs
  · obtain ⟨line, rest, hcs, hline⟩ := List.eq_append_cons_of_mem hfeed
    have hshorter : rest.length < cs.length := by
      rw [hcs, List.length_append, List.length_cons]
      omega
    rw [hcs]
    exact more line rest hline (lines_induction last more rest)
  · exact last cs hfeed
termination_by cs.length

theorem withoutReturns_eq_self_of_line {line : List Char} (hline : '\n' ∉ line) :
    withoutReturns line = line :=
  withoutReturns_eq_self_iff.mpr fun hmem => hline (hmem.mem (by simp))

theorem withoutReturns_append_feed {line : List Char} (hline : '\n' ∉ line) (rest : List Char) :
    withoutReturns (line ++ '\n' :: rest) = dropReturn line ++ '\n' :: withoutReturns rest := by
  induction line with
  | nil => simp [withoutReturns, dropReturn]
  | cons c line ih =>
    have hline : '\n' ∉ line := fun hmem => hline (List.mem_cons_of_mem _ hmem)
    have hrest := ih hline
    cases line with
    | nil => by_cases hreturn : c = '\r' <;> simp_all [withoutReturns, dropReturn]
    | cons d line =>
      have hd : d ≠ '\n' := fun hd => hline (by simp [hd])
      have hkeep : dropReturn (c :: d :: line) = c :: dropReturn (d :: line) := by
        rw [dropReturn, dropReturn, List.getLast?_cons_cons, List.dropLast_cons_cons]
        split <;> rfl
      rw [List.cons_append, withoutReturns, hrest, hkeep, if_neg (by simp [hd]), List.cons_append]

theorem closeLines_cons {pieces : List (List Char)} (hne : pieces ≠ []) (line : List Char) :
    closeLines (line :: pieces) = dropReturn line :: closeLines pieces := by
  obtain ⟨piece, pieces, rfl⟩ := List.exists_cons_of_ne_nil hne
  rfl

theorem closeLines_splitOn_eq_nil_iff {cs : List Char} :
    closeLines (cs.splitOn '\n') = [] ↔ cs = [] := by
  induction cs using lines_induction with
  | last line hline => cases line <;> simp [List.splitOn_eq_singleton hline, closeLines]
  | more line rest hline ih =>
    rw [List.splitOn_append_cons_self_of_not_mem hline, closeLines_cons (List.splitOn_ne_nil _ _)]
    simp

theorem withoutReturns_eq_nil_iff {cs : List Char} : withoutReturns cs = [] ↔ cs = [] := by
  induction cs with
  | nil => simp [withoutReturns]
  | cons c cs ih =>
    rw [withoutReturns]
    split
    · rename_i hend
      have hne : cs ≠ [] := by
        rintro rfl
        cases hend.2
      simp [ih, hne]
    · simp

theorem withoutFinalFeed_append {ys : List Char} (hne : ys ≠ []) (xs : List Char) :
    withoutFinalFeed (xs ++ ys) = xs ++ withoutFinalFeed ys := by
  have hlast : (xs ++ ys).getLast? = ys.getLast? := by
    rw [List.getLast?_append, List.getLast?_eq_some_getLast hne, Option.some_or]
  rw [withoutFinalFeed, withoutFinalFeed, hlast, List.dropLast_append_of_ne_nil hne]
  split <;> rfl

theorem intercalate_closeLines (cs : List Char) :
    ['\n'].intercalate (closeLines (cs.splitOn '\n')) = withoutFinalFeed (withoutReturns cs) := by
  induction cs using lines_induction with
  | last line hline =>
    have hlast : line.getLast? ≠ some '\n' := fun h => hline (List.mem_of_getLast? h)
    rw [List.splitOn_eq_singleton hline, withoutReturns_eq_self_of_line hline,
      withoutFinalFeed_eq_self_iff.mpr hlast]
    cases line <;> simp [closeLines]
  | more line rest hline ih =>
    rw [List.splitOn_append_cons_self_of_not_mem hline, closeLines_cons (List.splitOn_ne_nil _ _),
      withoutReturns_append_feed hline]
    cases rest with
    | nil =>
      -- the line feed ends the text, and opens no line
      simp [closeLines, withoutReturns, withoutFinalFeed]
    | cons c rest =>
      have hlines : closeLines ((c :: rest).splitOn '\n') ≠ [] := by
        simp [closeLines_splitOn_eq_nil_iff]
      have hne : withoutReturns (c :: rest) ≠ [] := by
        simp [withoutReturns_eq_nil_iff]
      rw [List.intercalate_cons_of_ne_nil hlines, ih, ← withoutFinalFeed_append hne,
        List.append_assoc, List.singleton_append]

/-- Joining the lines of a text loses what ends its last line and the carriage returns before line
feeds, and nothing else. -/
theorem unlines_lines (s : String) :
    unlines (lines s) = String.ofList (withoutFinalFeed (withoutReturns s.toList)) := by
  rw [← intercalate_closeLines, ← String.toList_inj, unlines, lines, String.toList_intercalate,
    String.toList_ofList, List.map_map]
  simp

theorem unlines_lines_eq_iff {s : String} : unlines (lines s) = s ↔ GivenBack s.toList := by
  rw [unlines_lines, ← String.toList_inj, String.toList_ofList, eq_self_iff_givenBack]

/-- A line without the carriage return at its end. -/
def withoutReturn (line : String) : String :=
  String.ofList (dropReturn line.toList)

/-- What comes back of a list of lines: not the last line if it is empty, and the lines in front of
it without the carriage returns at their ends. -/
def rejoin : List String → List String
  | [] => []
  | [last] => if last = "" then [] else [last]
  | line :: next :: rest => withoutReturn line :: rejoin (next :: rest)

/-- A list of lines of which nothing is lost. -/
structure Kept (ls : List String) : Prop where
  last : ls.getLast? ≠ some ""
  returns : ∀ line ∈ ls.dropLast, line.toList.getLast? ≠ some '\r'

theorem not_feed_of_mem_closeLines {pieces : List (List Char)}
    (h : ∀ piece ∈ pieces, '\n' ∉ piece) : ∀ line ∈ closeLines pieces, '\n' ∉ line := by
  induction pieces with
  | nil => simp [closeLines]
  | cons piece rest ih =>
    rw [List.forall_mem_cons] at h
    cases rest with
    | nil =>
      rw [closeLines]
      split
      · simp
      · simpa using h.1
    | cons next rest =>
      rw [closeLines, List.forall_mem_cons]
      refine ⟨fun hmem => h.1 ?_, ih h.2⟩
      rw [dropReturn] at hmem
      split at hmem
      · exact List.dropLast_subset piece hmem
      · exact hmem

theorem not_feed_of_mem_lines {s line : String} (h : line ∈ lines s) : '\n' ∉ line.toList := by
  obtain ⟨cs, hcs, rfl⟩ := List.mem_map.mp h
  rw [String.toList_ofList]
  exact not_feed_of_mem_closeLines (fun piece => not_mem_of_mem_splitOn) cs hcs

theorem closeLines_eq_rejoin (ls : List String) :
    (closeLines (ls.map String.toList)).map String.ofList = rejoin ls := by
  induction ls with
  | nil => rfl
  | cons line rest ih =>
    cases rest with
    | nil => by_cases hempty : line = "" <;> simp [closeLines, rejoin, hempty]
    | cons next rest =>
      rw [rejoin, ← ih]
      rfl

/-- Lines that are joined and then taken apart again. -/
theorem lines_unlines {ls : List String} (h : ∀ line ∈ ls, '\n' ∉ line.toList) :
    lines (unlines ls) = rejoin ls := by
  have hjoined : (unlines ls).toList = ['\n'].intercalate (ls.map String.toList) := by
    rw [unlines, String.toList_intercalate]
    rfl
  rw [lines, hjoined, ← closeLines_eq_rejoin]
  cases ls with
  | nil => rfl
  | cons line rest => rw [List.splitOn_intercalate '\n' (by simpa using h) (by simp)]

theorem withoutReturn_eq_self_iff {line : String} :
    withoutReturn line = line ↔ line.toList.getLast? ≠ some '\r' := by
  rw [withoutReturn, ← String.toList_inj, String.toList_ofList, dropReturn]
  split
  · rename_i hreturn
    refine iff_of_false (fun hsame => ?_) (fun hother => hother hreturn)
    have hlength := congrArg List.length hsame
    have hpositive := List.length_pos_iff.mpr (List.ne_nil_of_mem (List.mem_of_getLast? hreturn))
    rw [List.length_dropLast] at hlength
    omega
  · rename_i hother
    exact iff_of_true rfl hother

theorem length_rejoin (ls : List String) :
    (rejoin ls).length = if ls.getLast? = some "" then ls.length - 1 else ls.length := by
  induction ls with
  | nil => rfl
  | cons line rest ih =>
    cases rest with
    | nil => by_cases hempty : line = "" <;> simp [rejoin, hempty]
    | cons next rest =>
      rw [rejoin, List.length_cons, ih, List.getLast?_cons_cons]
      split <;> simp

theorem rejoin_eq_self_iff {ls : List String} : rejoin ls = ls ↔ Kept ls := by
  induction ls with
  | nil => exact iff_of_true rfl ⟨by simp, by simp⟩
  | cons line rest ih =>
    cases rest with
    | nil =>
      rw [rejoin]
      split
      · rename_i hempty
        exact iff_of_false (by simp) fun h => h.last (by rw [hempty]; rfl)
      · rename_i hsome
        exact iff_of_true rfl ⟨by simpa using hsome, by simp⟩
    | cons next rest =>
      rw [rejoin, List.cons.injEq, withoutReturn_eq_self_iff, ih]
      constructor
      · rintro ⟨hline, hlast, hreturns⟩
        refine ⟨by rwa [List.getLast?_cons_cons], ?_⟩
        rw [List.dropLast_cons_cons, List.forall_mem_cons]
        exact ⟨hline, hreturns⟩
      · rintro ⟨hlast, hreturns⟩
        rw [List.dropLast_cons_cons, List.forall_mem_cons] at hreturns
        rw [List.getLast?_cons_cons] at hlast
        exact ⟨hreturns.1, hlast, hreturns.2⟩

end ShellTutor.Text

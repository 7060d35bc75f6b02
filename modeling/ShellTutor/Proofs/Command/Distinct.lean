import Mathlib.Algebra.BigOperators.Group.List.Lemmas
import Mathlib.Algebra.Ring.Nat
import ShellTutor.Command.Builtin
import ShellTutor.Proofs.Outcome

/-!
# Each line once

What `uniq` keeps of a list of lines is told by three facts: no line twice, each line that there is,
and the lines in the order in which they first occur. The counts are those of the whole list, so
they do not depend on how it is ordered, and together they are its length.
-/

namespace ShellTutor

namespace Filter

/-- The list `kept` has each of the lines once, in the order of their first occurrence. -/
structure FirstOccurrences (lines kept : List String) : Prop where
  nodup : kept.Nodup
  mem_iff : ∀ line, line ∈ kept ↔ line ∈ lines
  inOrder : kept.Pairwise fun a b => lines.idxOf a < lines.idxOf b

/-- What `uniq` makes of a list of lines, with counts or without. -/
def uniqLines (counted : Bool) (lines : List String) : List String :=
  (tally lines).map (showTally counted)

/-- The file that `uniq` reads, if one is named: the last of them. -/
def uniqFile (args : List String) : Option String :=
  (args.filter (· ≠ "-c")).getLast?

theorem eraseDups_concat (lines : List String) (line : String) :
    (lines ++ [line]).eraseDups =
      if line ∈ lines then lines.eraseDups else lines.eraseDups ++ [line] := by
  have hsingle : [line].eraseDups = [line] := rfl
  rw [List.eraseDups_append]
  split <;> rename_i hmem <;> simp [List.removeAll, hmem, hsingle]

theorem eraseDups_eq_self {lines : List String} (h : lines.Nodup) : lines.eraseDups = lines := by
  induction lines using List.reverseRecOn with
  | nil => rfl
  | append_singleton lines line ih =>
    rw [List.nodup_append] at h
    obtain ⟨hlines, -, hother⟩ := h
    have hnew : line ∉ lines := fun hmem => hother line hmem line (List.mem_singleton_self line) rfl
    rw [eraseDups_concat, if_neg hnew, ih hlines]

/-- A line that comes last is new or was there before. -/
theorem firstOccurrences_eraseDups (lines : List String) :
    FirstOccurrences lines lines.eraseDups := by
  induction lines using List.reverseRecOn with
  | nil => exact ⟨List.nodup_nil, fun _ => Iff.rfl, .nil⟩
  | append_singleton lines line ih =>
    have hbefore : lines.eraseDups.Pairwise fun a b =>
        (lines ++ [line]).idxOf a < (lines ++ [line]).idxOf b := by
      refine ih.inOrder.imp_of_mem fun {a b} ha hb hlt => ?_
      rwa [List.idxOf_append, if_pos ((ih.mem_iff a).mp ha), List.idxOf_append,
        if_pos ((ih.mem_iff b).mp hb)]
    rw [eraseDups_concat]
    split
    · rename_i hmem
      refine ⟨ih.nodup, fun other => ?_, hbefore⟩
      rw [ih.mem_iff, List.mem_append, List.mem_singleton]
      exact ⟨Or.inl, fun h => h.elim id fun heq => heq ▸ hmem⟩
    · rename_i hnew
      refine ⟨?_, fun other => ?_, ?_⟩
      · refine List.nodup_append.mpr ⟨ih.nodup, List.nodup_singleton line, fun a ha b hb => ?_⟩
        rw [List.mem_singleton.mp hb]
        exact fun heq => hnew (heq ▸ (ih.mem_iff a).mp ha)
      · rw [List.mem_append, List.mem_append, ih.mem_iff]
      · refine List.pairwise_append.mpr ⟨hbefore, List.pairwise_singleton _ _, fun a ha b hb => ?_⟩
        have hold := (ih.mem_iff a).mp ha
        rw [List.mem_singleton.mp hb, List.idxOf_append, if_pos hold, List.idxOf_append,
          if_neg hnew]
        exact Nat.lt_add_left _ (List.idxOf_lt_length_of_mem hold)

namespace FirstOccurrences

variable {lines kept : List String} (h : FirstOccurrences lines kept)
include h

/-- The lines of a sorted list are in increasing order once each is there only once. -/
theorem increasing (hsorted : lines.Pairwise (· ≤ ·)) : kept.Pairwise (· < ·) := by
  refine h.inOrder.imp_of_mem fun {a b} ha hb hlt => ?_
  have ha := List.idxOf_lt_length_of_mem ((h.mem_iff a).mp ha)
  have hb := List.idxOf_lt_length_of_mem ((h.mem_iff b).mp hb)
  have hle := List.pairwise_iff_getElem.mp hsorted _ _ ha hb hlt
  rw [List.getElem_idxOf, List.getElem_idxOf] at hle
  refine Std.lt_of_le_of_ne hle ?_
  rintro rfl
  exact Nat.lt_irrefl _ hlt

/-- The counts add up to the number of lines. -/
theorem sum_count : (kept.map fun line => lines.count line).sum = lines.length := by
  have hperm : kept.Perm lines.dedup := by
    rw [List.perm_ext_iff_of_nodup h.nodup (List.nodup_dedup lines)]
    intro line
    rw [h.mem_iff, List.mem_dedup]
  rw [(hperm.map _).sum_eq]
  exact List.sum_map_count_dedup_eq_length lines

theorem perm {other lines' : List String} (h' : FirstOccurrences lines' other)
    (hlines : lines'.Perm lines) : other.Perm kept := by
  rw [List.perm_ext_iff_of_nodup h'.nodup h.nodup]
  intro line
  rw [h'.mem_iff, h.mem_iff, hlines.mem_iff]

end FirstOccurrences

theorem uniqLines_false (lines : List String) : uniqLines false lines = lines.eraseDups := by
  rw [uniqLines, tally_eq, List.map_map]
  exact List.map_id _

theorem tally_perm {lines other : List String} (h : other.Perm lines) :
    (tally other).Perm (tally lines) := by
  have hcount : ∀ line, other.count line = lines.count line := h.count_eq
  have hlines := (firstOccurrences_eraseDups lines).perm (firstOccurrences_eraseDups other) h
  simp only [tally_eq, hcount]
  exact hlines.map _

/-- The last file that is named is read. -/
theorem UniqOptions.foldl_word (args : List String) (o : UniqOptions) :
    args.foldl word o =
      { counted := o.counted || decide ("-c" ∈ args), file := (uniqFile args).or o.file } := by
  induction args generalizing o with
  | nil => simp [uniqFile]
  | cons arg rest ih =>
    rw [List.foldl_cons, ih, word]
    split
    · rename_i hflag
      simp [hflag, uniqFile]
    · rename_i hfile
      have hlast : uniqFile (arg :: rest) = (uniqFile rest).or (some arg) := by
        rw [uniqFile, List.filter_cons, if_pos (by simpa using hfile), List.getLast?_cons, uniqFile,
          Option.or_some]
      simp [hlast, Ne.symm hfile]

theorem uniq_eq {usage : String} {args : List String} {piped : Option String} {env : Environment}
    {text : String} (hinput : input usage env piped (uniqFile args) = .ok text) :
    uniq usage args piped env =
      .ok (.text (Text.unlines (uniqLines ("-c" ∈ args) (Text.lines text)))) := by
  rw [uniq, UniqOptions.foldl_word]
  simp only [Option.or_none, hinput, Outcome.ok_bind, Bool.false_or]
  rfl

end Filter

namespace Command

open ShellTutor.Filter

/-- Without a flag `uniq` keeps each line of its input once, in the order of their first occurrence,
and with `-c` it puts the number of occurrences in front of each. What it makes of a list of lines
it leaves as it is; the lines with their numbers are the same for each order of the list; and from a
sorted list they come in increasing order. -/
theorem uniq_keeps_first_occurrences :
    (∀ (args : List String) (piped : Option String) (env : Environment) (text : String),
      Filter.input uniq.usage env piped (uniqFile args) = .ok text →
      uniq.execute args piped env =
        (.ok (.text (Text.unlines (uniqLines ("-c" ∈ args) (Text.lines text)))), env)) ∧
    ∀ lines : List String,
      FirstOccurrences lines (uniqLines false lines) ∧
      uniqLines true lines = (uniqLines false lines).map (fun line =>
        Text.alignRight 7 (toString (lines.count line)) ++ " " ++ line) ∧
      ((uniqLines false lines).map fun line => lines.count line).sum = lines.length ∧
      uniqLines false (uniqLines false lines) = uniqLines false lines ∧
      (∀ other : List String, other.Perm lines →
        ((uniqLines false other).map fun line => (other.count line, line)).Perm
          ((uniqLines false lines).map fun line => (lines.count line, line))) ∧
      (lines.Pairwise (· ≤ ·) → (uniqLines false lines).Pairwise (· < ·)) := by
  refine ⟨fun args piped env text hinput => Prod.ext (uniq_eq hinput) rfl, fun lines => ?_⟩
  have hfirst := firstOccurrences_eraseDups lines
  simp only [uniqLines_false]
  refine ⟨hfirst, ?_, hfirst.sum_count, eraseDups_eq_self hfirst.nodup, fun other hother => ?_,
    hfirst.increasing⟩
  · rw [uniqLines, tally_eq, List.map_map]
    rfl
  · rw [← tally_eq, ← tally_eq]
    exact tally_perm hother

theorem uniq_keeps_first_occurrences_of_colours :
    ∃ env : Environment,
      Filter.input uniq.usage env (some "red\n\nblue\nred\n\nred") none =
        .ok "red\n\nblue\nred\n\nred" ∧
      uniq.execute ["-c"] (some "red\n\nblue\nred\n\nred") env =
        (.ok (.text "      3 red\n      2 \n      1 blue"), env) := by
  refine ⟨⟨"/", "/", "quest", ⟨[], "quest", "quest"⟩, {}, [], ⟨0⟩⟩, rfl, ?_⟩
  obtain ⟨hrun, hlaws⟩ := uniq_keeps_first_occurrences
  obtain ⟨-, hcounted, -⟩ := hlaws (Text.lines "red\n\nblue\nred\n\nred")
  rw [hrun ["-c"] _ _ _ rfl, decide_eq_true (List.mem_singleton_self "-c"), hcounted,
    uniqLines_false]
  have hrows : Text.unlines ((Text.lines "red\n\nblue\nred\n\nred").eraseDups.map fun line =>
      Text.alignRight 7
        (toString ((Text.lines "red\n\nblue\nred\n\nred").count line)) ++ " " ++ line) =
      "      3 red\n      2 \n      1 blue" := by
    decide +kernel
  rw [hrows]

end Command

end ShellTutor

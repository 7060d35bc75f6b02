import ShellTutor.Command.Filter.Input
import ShellTutor.Text.Column
import Std.Data.HashMap

/-!
# Distinct lines

`uniq` keeps the first of all equal lines of a text, wherever the others stand, and with `-c` tells
how often the line occurs. The lines are counted in one pass and taken in a second; `tally_eq` says
that this gives each distinct line with its count.
-/

namespace ShellTutor.Filter

/-- Whether to count, and in which file. -/
structure UniqOptions where
  counted : Bool := false
  file : Option String := none
  deriving DecidableEq, Repr

/-- Takes one more word of the arguments of `uniq`. -/
def UniqOptions.word (o : UniqOptions) (arg : String) : UniqOptions :=
  if arg = "-c" then { o with counted := true } else { o with file := some arg }

def countLine (counts : Std.HashMap String Nat) (line : String) : Std.HashMap String Nat :=
  counts.insert line (counts.getD line 0 + 1)

/-- The lines that have a count, in the order of their first occurrence. -/
def withCounts (counts : Std.HashMap String Nat) : List String → List (Nat × String)
  | [] => []
  | line :: rest =>
    match counts[line]? with
    | some n => (n, line) :: withCounts (counts.erase line) rest
    | none => withCounts counts rest

/-- The distinct lines in the order of their first occurrence, each with the number of its
occurrences. -/
def tally (lines : List String) : List (Nat × String) :=
  withCounts (lines.foldl countLine ∅) lines

/-- Counting adds to each line the number of its occurrences. -/
theorem getElem?_foldl_countLine (line : String) (lines : List String)
    (counts : Std.HashMap String Nat) :
    (lines.foldl countLine counts)[line]? =
      if line ∈ lines then some (counts.getD line 0 + lines.count line) else counts[line]? := by
  induction lines generalizing counts with
  | nil => simp
  | cons first rest ih =>
    rw [List.foldl_cons, ih]
    by_cases h : first = line
    · subst h
      by_cases hrest : first ∈ rest
      · simp [hrest, countLine]
        omega
      · simp [hrest, countLine, List.count_eq_zero_of_not_mem hrest]
    · have hne : ¬ line = first := fun heq => h heq.symm
      by_cases hrest : line ∈ rest
      · simp [hrest, countLine, h, Std.HashMap.getD_insert]
      · simp [hrest, countLine, h, hne, Std.HashMap.getElem?_insert]

/-- Each line is taken once, with its count. -/
theorem withCounts_eq (counts : Std.HashMap String Nat) (lines : List String) :
    withCounts counts lines =
      (lines.filter counts.contains).eraseDups.map fun line => (counts.getD line 0, line) := by
  induction lines generalizing counts with
  | nil => simp [withCounts]
  | cons line rest ih =>
    rw [withCounts]
    split
    · rename_i n h
      have hmem : counts.contains line = true := by
        rw [Std.HashMap.contains_eq_isSome_getElem?, h]; rfl
      have hfilter : rest.filter (counts.erase line).contains =
          (rest.filter counts.contains).filter fun other => !other == line := by
        rw [List.filter_filter]
        refine List.filter_congr fun other _ => ?_
        rw [Std.HashMap.contains_erase, BEq.comm]
      rw [List.filter_cons_of_pos hmem, List.eraseDups_cons, ih, hfilter, List.map_cons,
        Std.HashMap.getD_eq_getD_getElem?, h]
      refine congrArg _ (List.map_congr_left fun other hother => ?_)
      have hne : (other == line) = false := by
        simpa using (List.mem_filter.1 (List.mem_eraseDups.1 hother)).2
      rw [Std.HashMap.getD_erase, BEq.comm, hne]
      rfl
    · rename_i h
      have hmem : counts.contains line = false := by
        rw [Std.HashMap.contains_eq_isSome_getElem?, h]; rfl
      rw [List.filter_cons_of_neg (by simp [hmem]), ih]

/-- The tally names each distinct line once, with its count. -/
theorem tally_eq (lines : List String) :
    tally lines = lines.eraseDups.map fun line => (lines.count line, line) := by
  have hget : ∀ line ∈ lines, (lines.foldl countLine ∅)[line]? = some (lines.count line) := by
    intro line hline
    rw [getElem?_foldl_countLine, if_pos hline]
    simp
  have hfilter : lines.filter (lines.foldl countLine ∅).contains = lines := by
    refine List.filter_eq_self.2 fun line hline => ?_
    rw [Std.HashMap.contains_eq_isSome_getElem?, hget line hline]
    rfl
  rw [tally, withCounts_eq, hfilter]
  refine List.map_congr_left fun line hline => ?_
  rw [Std.HashMap.getD_eq_getD_getElem?, hget line (List.mem_eraseDups.1 hline)]
  rfl

def showTally (counted : Bool) (entry : Nat × String) : String :=
  if counted then Text.alignRight 7 (toString entry.1) ++ " " ++ entry.2 else entry.2

def uniq (usage : String) (args : List String) (piped : Option String) (env : Environment) :
    Except ShellError CommandOutput := do
  let o := args.foldl UniqOptions.word {}
  let lines := Text.lines (← input usage env piped o.file)
  return .text (Text.unlines ((tally lines).map (showTally o.counted)))

end ShellTutor.Filter

import ShellTutor.Command.Filter.Input
import ShellTutor.Number.Binary64
import ShellTutor.Sort.Stable
import ShellTutor.Text.Blank
import ShellTutor.Text.Search

/-!
# Sorting lines

Lines are sorted by their code points, or with `-n` by the number that their first word stands for.
Lines with equal keys stay in order. With `-r` the sorted list is turned around as a whole.

A `nan` counts as equal to every number, although the numbers differ from each other, so with such
lines there is no order to sort by. What comes out is then some list of the same lines, or the sort
notices and the program crashes.
-/

namespace ShellTutor.Filter

/-- How to sort. -/
structure SortOptions where
  reversed : Bool := false
  numeric : Bool := false
  file : Option String := none
  deriving DecidableEq, Repr

/-- Takes one more letter of a flag of `sort`. -/
def SortOptions.flag (o : SortOptions) : Char → Except ShellError SortOptions
  | 'r' => .ok { o with reversed := true }
  | 'n' => .ok { o with numeric := true }
  | other => .error (.invalidOption other)

/-- Takes one more word of the arguments of `sort`. A lone dash is a file. -/
def SortOptions.word (o : SortOptions) (arg : String) : Except ShellError SortOptions :=
  match Text.after? "-" arg with
  | some flags =>
    if flags = "" then .ok { o with file := some arg } else flags.toList.foldlM flag o
  | none => .ok { o with file := some arg }

/-- The number at the start of a line; a line without one counts as zero. -/
def numericKey (line : String) : Number.Binary64 :=
  (((Text.words line).head?.bind Number.binary64?)).getD (.finite 0)

def sortLines (lines : List String) : List String :=
  lines.mergeSort fun a b => decide (a ≤ b)

/-- Sorts lines by number. There is no result if the sort crashes. -/
def sortNumbers? (lines : List String) : Option (List String) :=
  let keyed := lines.map fun line => (numericKey line, line)
  (Sort.sort? (fun a b => a.1.lt b.1) keyed).map fun sorted => sorted.map Prod.snd

/-- The lines sorted by number, or as they are if there is no result. -/
def sortNumbers (lines : List String) : List String :=
  (sortNumbers? lines).getD lines

def sort (usage : String) (args : List String) (piped : Option String) (env : Environment) :
    Except ShellError CommandOutput := do
  let o ← args.foldlM SortOptions.word {}
  let lines := Text.lines (← input usage env piped o.file)
  let sorted := if o.numeric then sortNumbers lines else sortLines lines
  return .text (Text.unlines (if o.reversed then sorted.reverse else sorted))

/-- Whether sorting crashes. -/
def sortCrashes (usage : String) (args : List String) (piped : Option String) (env : Environment) :
    Bool :=
  let crash : Except ShellError Bool := do
    let o ← args.foldlM SortOptions.word {}
    let lines := Text.lines (← input usage env piped o.file)
    return o.numeric && (sortNumbers? lines).isNone
  crash.toOption.getD false

end ShellTutor.Filter

import ShellTutor.Command.Filter.Input
import ShellTutor.Number.Natural
import ShellTutor.Text.Blank
import ShellTutor.Text.Search

/-!
# The first lines, the last lines, and counts

`head` and `tail` select lines from one end of a text, ten when nothing else is said. `wc` counts
the lines, the words and the characters of a text, where line ends do not count except between
lines.
-/

namespace ShellTutor.Filter

/-- How many lines to select, and from which file. -/
structure SelectOptions where
  count : Nat := 10
  file : Option String := none
  /-- Whether the last word was a flag whose number is still to come. -/
  awaitsCount : Bool := false
  deriving DecidableEq, Repr

namespace SelectOptions

def withCount (o : SelectOptions) (s : String) : Except ShellError SelectOptions :=
  match Number.count? s with
  | some n => .ok { o with count := n, awaitsCount := false }
  | none => .error (.invalidArgument ("invalid number of lines: '" ++ s ++ "'"))

/-- Takes one more word: `-n` and the number after it, `-nN`, `-N`, or a file. A lone dash is a
file. -/
def word (o : SelectOptions) (arg : String) : Except ShellError SelectOptions :=
  if o.awaitsCount then o.withCount arg
  else if arg = "-n" then .ok { o with awaitsCount := true }
  else
    match Text.after? "-n" arg, Text.after? "-" arg with
    | some number, _ => o.withCount number
    | none, some number =>
      if number = "" then .ok { o with file := some arg } else o.withCount number
    | none, none => .ok { o with file := some arg }

/-- Reads the arguments of `head` and `tail`. -/
def parse (args : List String) : Except ShellError SelectOptions := do
  let o ← args.foldlM word {}
  if o.awaitsCount then o.withCount "" else return o

end SelectOptions

def select (choose : Nat → List String → List String) (usage : String) (args : List String)
    (piped : Option String) (env : Environment) : Except ShellError CommandOutput := do
  let o ← SelectOptions.parse args
  let text ← input usage env piped o.file
  return .text (Text.unlines (choose o.count (Text.lines text)))

/-- The last `n` items of a list. -/
def takeLast {α : Type} (n : Nat) (xs : List α) : List α :=
  xs.drop (xs.length - n)

def head : String → List String → Option String → Environment → Except ShellError CommandOutput :=
  select List.take

def tail : String → List String → Option String → Environment → Except ShellError CommandOutput :=
  select takeLast

/-- What `wc` shows. -/
inductive Measure where
  | all
  | lines
  | words
  | chars
  deriving DecidableEq, Repr

/-- What to count, and in which file. -/
structure CountOptions where
  measure : Measure := .all
  file : Option String := none
  deriving DecidableEq, Repr

/-- Takes one more word of the arguments of `wc`. -/
def CountOptions.word (o : CountOptions) (arg : String) : CountOptions :=
  if arg = "-l" then { o with measure := .lines }
  else if arg = "-w" then { o with measure := .words }
  else if arg = "-c" then { o with measure := .chars }
  else { o with file := some arg }

/-- The line that `wc` shows for a text. -/
def countText (measure : Measure) (text : String) : String :=
  let lines := (Text.lines text).length
  let words := (Text.words text).length
  let chars := (Text.unlines (Text.lines text)).length
  match measure with
  | .all => toString lines ++ " " ++ toString words ++ " " ++ toString chars
  | .lines => toString lines
  | .words => toString words
  | .chars => toString chars

/-- Counts lines, words and characters. -/
def count (usage : String) (args : List String) (piped : Option String) (env : Environment) :
    Except ShellError CommandOutput := do
  let o := args.foldl CountOptions.word {}
  return .text (countText o.measure (← input usage env piped o.file))

end ShellTutor.Filter

import ShellTutor.Command.Filter.Input
import ShellTutor.Text.Lowercase

/-!
# Searching lines

`grep` selects the lines in which a pattern occurs when case is ignored, or with `-v` all others.
The pattern is plain text without its quotes. Lines of a named file are numbered.
-/

namespace ShellTutor.Filter

/-- How to search. -/
structure GrepOptions where
  numbered : Bool := false
  inverted : Bool := false
  countOnly : Bool := false
  /-- The pattern, the file, and words that are not looked at. -/
  operands : List String := []
  deriving DecidableEq, Repr

/-- Takes one more word of the arguments of `grep`. Case is ignored with and without `-i`. -/
def GrepOptions.word (o : GrepOptions) (arg : String) : GrepOptions :=
  if arg = "-i" then o
  else if arg = "-n" then { o with numbered := true }
  else if arg = "-v" then { o with inverted := true }
  else if arg = "-c" then { o with countOnly := true }
  else { o with operands := o.operands ++ [arg] }

/-- The lines that are selected, each with its number. -/
def selectMatches (pattern : String) (inverted : Bool) (lines : List String) :
    List (Nat × String) :=
  let sought := Text.lowerChars pattern.toList
  ((lines.zipIdx 1).map fun (line, n) => (n, line)).filter fun (_, line) =>
    Text.occursIn sought (Text.lowerChars line.toList) != inverted

def showMatch (numbered : Bool) (hit : Nat × String) : String :=
  if numbered then toString hit.1 ++ ":" ++ hit.2 else hit.2

def grep (usage : String) (args : List String) (piped : Option String) (env : Environment) :
    Except ShellError CommandOutput := do
  let o := args.foldl GrepOptions.word {}
  match o.operands with
  | [] => .error (.wrongUsage usage)
  | word :: rest =>
    let pattern := Text.without ['\x22', '\x27'] word
    let file := rest.head?
    let text ← input usage env piped file
    let hits := selectMatches pattern o.inverted (Text.lines text)
    if o.countOnly then return .text (toString hits.length)
    else if hits.isEmpty then
      match file with
      | some name => return .notice ("\"" ++ pattern ++ "\" not found in " ++ name)
      | none => return .text ""
    else
      let numbered := o.numbered || file.isSome
      let highlight := if !o.inverted && pattern ≠ "" then some pattern else none
      return .lines (hits.map (showMatch numbered)) highlight

end ShellTutor.Filter

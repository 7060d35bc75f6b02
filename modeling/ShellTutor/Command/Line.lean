import ShellTutor.Error
import ShellTutor.Text.Blank
import ShellTutor.Text.Lines

/-!
# The grammar of lines

A line is a pipeline of stages with bars between them, and may end in one redirect. Words are
separated by blanks; quotes mean nothing here. The first `>` that no backslash precedes starts the
redirect: the word after it is the target, and the words after the target belong to the last stage.
-/

namespace ShellTutor

/-- A redirect of output into a file. -/
structure Redirect where
  target : String
  append : Bool
  deriving DecidableEq, Repr

/-- A line that was read: the words of each stage, and the redirect. -/
structure ParsedLine where
  stages : List (List String) := []
  redirect : Option Redirect := none
  deriving DecidableEq, Repr

namespace ParsedLine

/-- The text before the first `>` that no backslash precedes, and the text after it. -/
def splitRedirect : List Char → Option (List Char × List Char)
  | [] => none
  | ['\\'] => none
  | '\\' :: c :: cs => (splitRedirect cs).map fun (before, after) => ('\\' :: c :: before, after)
  | c :: cs =>
    if c = '>' then some ([], cs)
    else (splitRedirect cs).map fun (before, after) => (c :: before, after)

/-- The token to complain about in a word that may not stand in or after a redirect. -/
def offendingToken? (word : String) : Option String :=
  if word.toList.contains '|' then some "|"
  else if word.toList.contains '>' then some ">"
  else none

/-- Reads what follows the first `>`: the redirect and the words after its target. -/
def readRedirect (cs : List Char) : Except ShellError (Redirect × List String) :=
  let (append, rest) :=
    match cs with
    | '>' :: rest => (true, rest)
    | rest => (false, rest)
  match Text.words (String.ofList rest) with
  | [] => .error (.unexpectedToken "newline")
  | target :: trailing =>
    match (target :: trailing).findSome? offendingToken? with
    | some token => .error (.unexpectedToken token)
    | none => .ok (⟨target, append⟩, trailing)

/-- Reads the stages of the part of a line before its redirect. -/
def readStages (cs : List Char) : Except ShellError (List (List String)) :=
  if cs.all Text.isBlank then .error (.invalidArgument "syntax error: missing command")
  else
    (cs.splitOn '|').mapM fun segment =>
      match Text.words (String.ofList segment) with
      | [] => .error (.unexpectedToken "|")
      | words => .ok words

def extendLast (trailing : List String) : List (List String) → List (List String)
  | [] => []
  | [last] => [last ++ trailing]
  | stage :: next :: rest => stage :: extendLast trailing (next :: rest)

/-- Reads a line. A blank line has no stages. -/
def parse (line : String) : Except ShellError ParsedLine :=
  let cs := (Text.trim line).toList
  if cs.isEmpty then .ok {}
  else
    match splitRedirect cs with
    | none => do
      return { stages := ← readStages cs }
    | some (before, after) => do
      let (redirect, trailing) ← readRedirect after
      return { stages := extendLast trailing (← readStages before), redirect := some redirect }

variable (p : ParsedLine)

def isEmpty : Bool :=
  p.stages.isEmpty

/-- Whether the line has more than one stage or a redirect. -/
def isPipeline : Bool :=
  1 < p.stages.length || p.redirect.isSome

def command? : Option String :=
  p.stages.head?.bind List.head?

def args : List String :=
  (p.stages.headD []).tail

def render : String :=
  let stages := " | ".intercalate (p.stages.map (" ".intercalate ·))
  match p.redirect with
  | none => stages
  | some r => stages ++ (if r.append then " >> " else " > ") ++ r.target

end ParsedLine

def stripQuotes (s : String) : String :=
  match s.toList with
  | quote :: rest =>
    if (quote = '\x22' ∨ quote = '\x27') ∧ rest.getLast? = some quote then
      String.ofList rest.dropLast
    else s
  | [] => s

end ShellTutor

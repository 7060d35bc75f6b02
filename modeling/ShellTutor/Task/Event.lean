import ShellTutor.Command.Registry

/-!
# Events

After each submitted line the session reports an event: what was submitted, what it called, whether
it succeeded, and in which directory it left the session. A write of the editor is reported as if a
command `save` had been submitted.
-/

namespace ShellTutor

/-- What was done. -/
structure CommandEvent where
  /-- The line as it was submitted, without the blanks around it. -/
  line : String
  /-- The key of the first command; empty when the line could not be read. -/
  command : String
  /-- The arguments of the first command. -/
  args : List String
  /-- The keys of the commands of all stages. -/
  stages : List String
  redirect : Option Redirect
  succeeded : Bool
  /-- The working directory afterwards. -/
  cwd : String
  /-- The absolute path of the last operand of the first command. -/
  target : Option String
  deriving DecidableEq, Repr

namespace CommandEvent

/-- The event of a line, without target. -/
def ofLine (line : String) (parsed : Option ParsedLine) (succeeded : Bool) (cwd : String) :
    CommandEvent :=
  let read := parsed.getD {}
  let stages := read.stages.filterMap fun tokens => tokens.head?.map commandKey
  { line, stages, succeeded, cwd
    command := stages.headD ""
    args := stageArgs (read.stages.headD [])
    redirect := read.redirect
    target := none }

/-- The operand that an event is about: the script of a script run, else the last argument that does
not start with a dash. -/
def operand? (event : CommandEvent) : Option String :=
  if event.command = "./" then event.args.head?
  else event.args.reverse.find? fun arg => arg.toList.head? ≠ some '-'

/-- The event with its target, seen from the directory in which the command started. -/
def withTarget (event : CommandEvent) (start : String) : CommandEvent :=
  { event with target := event.operand?.map (Path.resolve start) }

def saved (path cwd : String) : CommandEvent where
  line := "save " ++ path
  command := "save"
  args := [path]
  stages := ["save"]
  redirect := none
  succeeded := true
  cwd
  target := some path

end CommandEvent

end ShellTutor

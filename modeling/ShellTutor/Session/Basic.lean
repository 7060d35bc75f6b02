import ShellTutor.Command.Registry
import ShellTutor.Editor
import ShellTutor.FileTree.Load
import ShellTutor.Lesson.Basic
import ShellTutor.Pager
import ShellTutor.Task.Board
import ShellTutor.Text.Search

/-!
# Sessions

A session is what one learner works in: a file tree, a place in it, the lines submitted so far, the
variables that scripts assigned, and the tasks of the lesson. The submitted lines go to the pager
if it is open, else to the editor if that is, and else to the commands.
-/

namespace ShellTutor

/-- The state of a session. -/
structure Session where
  tree : FileTree
  cwd : String
  home : String
  user : String
  hostname : String
  /-- The number of lines in a window of the pager. -/
  pageSize : Nat
  registry : Registry
  /-- The submitted lines, oldest first. -/
  history : List String := []
  vars : Variables := {}
  /-- The pager, while it is open. It takes all lines. -/
  pager? : Option Pager := none
  /-- The editor, while it is open. It takes the lines that no pager takes. -/
  editor? : Option Editor := none
  /-- The tasks of the lesson. -/
  board : TaskBoard := {}
  /-- Further boards, each of which sees the same events as the board of the lesson. -/
  watchers : List TaskBoard := []
  deriving DecidableEq, Repr

namespace Session

def ofLesson (lesson : Lesson) (now : Timestamp) : Except ShellError Session := do
  let tree ← FileTree.ofSeed lesson.home lesson.user lesson.group lesson.tree now
  return {
    tree
    cwd := lesson.home
    home := lesson.home
    user := lesson.user
    hostname := lesson.hostname
    pageSize := lesson.pageSize
    registry := Registry.builtin.restrict lesson.commands
    board := .ofRules lesson.tasks }

/-- A path with `~` for the home directory, if it is there or below. -/
def shorten (home path : String) : String :=
  match Text.after? home path with
  | none => path
  | some rest => if rest = "" ∨ rest.toList.head? = some '/' then "~" ++ rest else path

variable (s : Session)

/-- The prompt: user, host and working directory. -/
def prompt : String :=
  s.user ++ "@" ++ s.hostname ++ ":" ++ shorten s.home s.cwd ++ "$"

def inPager : Bool :=
  s.pager?.isSome

def inEditor : Bool :=
  s.editor?.isSome

/-- Whether the next line goes to the commands. -/
def takesCommands : Bool :=
  !s.inPager && !s.inEditor

def environment (now : Timestamp) : Environment where
  cwd := s.cwd
  home := s.home
  user := s.user
  tree := s.tree
  vars := s.vars
  history := s.history
  now

/-- Runs a line that was read. The session keeps what the line left behind, also when it failed. -/
def run (parsed : ParsedLine) (now : Timestamp) : Except ShellError CommandOutput × Session :=
  let (result, env) := s.registry.run parsed none (s.environment now)
  (result, { s with cwd := env.cwd, tree := env.tree, vars := env.vars })

def watch (board : TaskBoard) : Session :=
  { s with watchers := s.watchers ++ [board] }

def resetTasks : Session :=
  { s with board := s.board.reset }

end Session

end ShellTutor

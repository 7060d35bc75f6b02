import ShellTutor.FileTree.Seed
import ShellTutor.Task.Rule

/-!
# Lessons

A lesson fixes all that distinguishes one session from another: who works on which host, what the
home directory holds, which commands are enabled, and which tasks are to be done.
-/

namespace ShellTutor

/-- A lesson. -/
structure Lesson where
  title : String
  day : Nat := 0
  home : String := "/home/quest"
  user : String := "quest"
  group : String := "quest"
  hostname : String := "linux"
  /-- The number of lines in a window of the pager. -/
  pageSize : Nat := 10
  /-- The enabled commands; all of them if none is named. -/
  commands : List String := []
  /-- What the home directory holds at the start. -/
  tree : List SeedEntry := []
  tasks : List TaskRule := []
  deriving Repr

namespace Lesson

def blank : Lesson := { title := "Linux Quest" }

def repeatedId? (earlier : List String) : List TaskRule → Option String
  | [] => none
  | rule :: rest =>
    if earlier.contains rule.id then some rule.id else repeatedId? (rule.id :: earlier) rest

/-- Checks what the form of a document does not: the home directory is an absolute path, a page has
a line, and task ids are distinct. -/
def validate (lesson : Lesson) : Except ShellError Lesson :=
  if lesson.home.toList.head? ≠ some '/' then
    .error (.config ("home must be an absolute path, got '" ++ lesson.home ++ "'"))
  else if lesson.pageSize = 0 then .error (.config "page_size must be at least 1")
  else
    match repeatedId? [] lesson.tasks with
    | some id => .error (.config ("duplicate task id '" ++ id ++ "'"))
    | none => .ok lesson

end Lesson

end ShellTutor

import ShellTutor.Lesson.Course
import ShellTutor.Lesson.Document
import ShellTutor.Text.Blank
import ShellTutor.Text.Search

/-!
# Finding a lesson

A lesson is named by the number of a day of the course, with or without `day` in front, or by the
path of a file. What a path leads to is asked of a function, which gives the text of a file.
-/

namespace ShellTutor.Lesson

/-- A lesson of the course, by its day. -/
def builtin (day : Nat) : Except ShellError Lesson :=
  match if day = 0 then none else Course.days[day - 1]? with
  | some lesson => .ok lesson
  | none =>
    .error (.config ("no built-in lesson for day " ++ toString day ++ " (1-" ++
      toString Course.days.length ++ ")"))

/-- What stands behind the last dot of a file's name. A dot at its start does not count. -/
def extension? (path : String) : Option String :=
  let name := (Path.splitParent path).2.toList
  match name.reverse.dropWhile (· != '.') with
  | [] | [_] => none
  | _ :: _ :: _ => some (String.ofList (name.reverse.takeWhile (· != '.')).reverse)

/-- Whether a file is read as JSON. All others are read as TOML. -/
def isJsonFile (path : String) : Bool :=
  (extension? path).any (·.toLower == "json")

/-- Reads a lesson from the text of a file, whose path is part of the failure. -/
def ofText (path text : String) : Except ShellError Lesson :=
  (if isJsonFile path then ofJson text else ofToml text).mapError fun e =>
    .config (path ++ ": " ++ e.message)

/-- Reads a lesson from a file, given its text or why there is none. -/
def ofFile (path : String) (text : Except String String) : Except ShellError Lesson :=
  match text with
  | .ok text => ofText path text
  | .error reason => .error (.config (path ++ ": " ++ reason))

def dayOf? (name : String) : Option Nat :=
  let name := Text.trim name
  Number.natUpTo? 255 ((Text.after? "day" name).getD name)

/-- Finds a lesson. `file` gives the text of a file, or why it cannot be read, and `none` where
there is no file. -/
def resolve (file : String → Option (Except String String)) (name : String) :
    Except ShellError Lesson :=
  match dayOf? name with
  | some day => builtin day
  | none =>
    let path := Text.trim name
    match file path with
    | some text => ofFile path text
    | none =>
      .error (.config ("unknown lesson '" ++ name ++ "': expected a day (1-" ++
        toString Course.days.length ++ ") or a lesson file"))

end ShellTutor.Lesson

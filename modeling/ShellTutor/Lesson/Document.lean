import ShellTutor.Document.Json
import ShellTutor.Document.Reading
import ShellTutor.Document.Toml
import ShellTutor.FileTree.SeedDocument
import ShellTutor.Lesson.Basic
import ShellTutor.Number.Natural

/-!
# Lessons in documents

Lessons and their task rules are records whose parts have the names given here. A part that is
missing has the default of the lesson or rule.
-/

namespace ShellTutor

open Document

def readTexts : Reader (List String) :=
  readList readText

def FileRule.read : Reader FileRule := fun r v => do
  match ← parts? ["path", "contains", "contains_any", "executable"] r v with
  | [path, contains, containsAny, executable] =>
    let r ← r.enter
    some
      { path := ← orElse none (readOptional readText) r path
        contains := ← orElse [] readTexts r contains
        containsAny := ← orElse [] readTexts r containsAny
        executable := ← orElse none (readOptional readBool) r executable }
  | _ => none

/-- The parts of a task rule, in order. -/
def TaskRule.partNames : List String :=
  ["id", "description", "command", "args", "not_args", "target", "mode", "file", "line_contains",
    "uses", "min_stages", "redirect", "path_exists", "cwd"]

def TaskRule.read : Reader TaskRule := fun r v => do
  match ← parts? TaskRule.partNames r v with
  | [id, description, command, args, notArgs, target, mode, file, lineContains, uses, minStages,
      redirect, pathExists, cwd] =>
    let r ← r.enter
    let modes := readChoice [("octal", ModeKind.octal), ("symbolic", ModeKind.symbolic)]
    let redirects := readChoice
      [("any", RedirectRule.any), ("overwrite", RedirectRule.overwrite),
        ("append", RedirectRule.append)]
    some
      { id := ← required readText r id
        description := ← orElse "" readText r description
        command := ← orElse none (readOptional readText) r command
        args := ← orElse [] readTexts r args
        notArgs := ← orElse [] readTexts r notArgs
        target := ← orElse none (readOptional readText) r target
        mode := ← orElse none (readOptional modes) r mode
        file := ← orElse none (readOptional FileRule.read) r file
        lineContains := ← orElse none (readOptional readText) r lineContains
        uses := ← orElse [] readTexts r uses
        minStages := ← orElse 1 (readNat Number.maxCount) r minStages
        redirect := ← orElse none (readOptional redirects) r redirect
        pathExists := ← orElse none (readOptional readText) r pathExists
        cwd := ← orElse none (readOptional readText) r cwd }
  | _ => none

def TaskRule.ofJson (v : Value) : Except ShellError (List TaskRule) :=
  match readList TaskRule.read .json v with
  | some rules => .ok rules
  | none => .error (.json "expected a list of task rules")

namespace Lesson

/-- The parts of a lesson, in order. -/
def partNames : List String :=
  ["title", "day", "home", "user", "group", "hostname", "page_size", "commands", "tree", "tasks"]

def read : Reader Lesson := fun r v => do
  match ← parts? partNames r v with
  | [title, day, home, user, group, hostname, pageSize, commands, tree, tasks] =>
    let r ← r.enter
    some
      { title := ← required readText r title
        day := ← orElse 0 (readNat 255) r day
        home := ← orElse "/home/quest" readText r home
        user := ← orElse "quest" readText r user
        group := ← orElse "quest" readText r group
        hostname := ← orElse "linux" readText r hostname
        pageSize := ← orElse 10 (readNat Number.maxCount) r pageSize
        commands := ← orElse [] readTexts r commands
        tree := ← orElse [] SeedEntry.readAll r tree
        tasks := ← orElse [] (readList TaskRule.read) r tasks }
  | _ => none

def ofJsonValue (v : Option Value) : Except ShellError Lesson :=
  match v.bind (read .json) with
  | some lesson => lesson.validate
  | none => .error (.json "expected a lesson")

def ofJson (s : String) : Except ShellError Lesson :=
  ofJsonValue (Json.parse? s)

def ofToml (s : String) : Except ShellError Lesson :=
  match (Toml.parse? s).bind (read .toml) with
  | some lesson => lesson.validate
  | none => .error (.toml "expected a lesson")

/-- The lesson with another seed, given as a JSON text. -/
def withJsonTree (lesson : Lesson) (s : String) : Except ShellError Lesson :=
  (SeedEntry.ofJson s).map fun tree => { lesson with tree }

end Lesson

end ShellTutor

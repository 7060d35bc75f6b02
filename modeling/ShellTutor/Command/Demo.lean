import ShellTutor.Command.Environment
import ShellTutor.Text.Lines

/-!
# Example scripts

`demo` writes one of five example scripts into the working directory and makes it executable.
-/

namespace ShellTutor.Demo

/-- Echoes its greeting, the time and the user. -/
def basic : List String :=
  ["#!/bin/bash", "# a basic script", "echo \"=== basic script demo ===\"",
    "echo \"Welcome to the world of scripts!\"", "echo \"Current time: $(date)\"",
    "echo \"Current user: $USER\""]

def assignments : List String :=
  ["#!/bin/bash", "# using variables", "NAME=\"Linux adventurer\"", "LEVEL=5", "EXPERIENCE=1000",
    "", "echo \"=== variables demo ===\"", "echo \"Name: $NAME\"", "echo \"Level: $LEVEL\"",
    "echo \"Experience: $EXPERIENCE\""]

def conditions : List String :=
  ["#!/bin/bash", "# branching", "echo \"=== conditions demo ===\"", "SCORE=85", "",
    "if [ $SCORE -ge 90 ]; then", "    echo \"Excellent! Rank A\"",
    "elif [ $SCORE -ge 70 ]; then", "    echo \"Well done! Rank B\"", "else",
    "    echo \"Keep practicing\"", "fi"]

def loops : List String :=
  ["#!/bin/bash", "# loops", "echo \"=== loops demo ===\"", "", "echo \"Countdown:\"",
    "for i in 5 4 3 2 1; do", "    echo \"$i...\"", "done", "echo \"Done!\""]

def functions : List String :=
  ["#!/bin/bash", "# functions", "greet_user() \x7b", "    local name=$1",
    "    echo \"Hello, $name!\"", "\x7d", "", "echo \"=== functions demo ===\"",
    "greet_user \"script learner\""]

def scripts : List (String × List String) :=
  [("basic", basic), ("variables", assignments), ("conditions", conditions), ("loops", loops),
    ("functions", functions)]

def names : String :=
  ", ".intercalate (scripts.map Prod.fst)

def mode : ModeSpec :=
  .octal ⟨.all, .readExec, .readExec⟩

/-- Writes an executable file into the working directory. -/
def write (file content : String) (env : Environment) : Except ShellError Unit × Environment :=
  match env.tree.writeFile env.cwd file content .overwrite env.now with
  | .error e => (.error e, env)
  | .ok tree =>
    match tree.changePermissions env.cwd file mode with
    | .error e => (.error e, { env with tree })
    | .ok (_, tree) => (.ok (), { env with tree })

/-- Writes the example script that the first argument names. -/
def run (args : List String) (env : Environment) : Outcome :=
  match args with
  | [] => (.ok (.notice ("demo: available demos: " ++ names)), env)
  | kind :: _ =>
    match scripts.lookup kind with
    | none =>
      (.error (.invalidArgument
        ("unknown demo '" ++ kind ++ "' (available: " ++ names ++ ")")), env)
    | some source =>
      let file := kind ++ "_demo.sh"
      let (result, env) := write file (Text.unlines source) env
      (result.map fun _ =>
        .text ("created demo script " ++ file ++ "\ncat " ++ file ++ " to view it, ./" ++ file ++
          " to run it"), env)

end ShellTutor.Demo

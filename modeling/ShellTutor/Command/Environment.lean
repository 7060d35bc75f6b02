import ShellTutor.Command.Output
import ShellTutor.Dictionary
import ShellTutor.FileTree.Basic

/-!
# What a command works on

A command sees the session through an environment and may change three things in it: the working
directory, the file tree and the variables. Commands give back the environment that they leave, also
when they fail.
-/

namespace ShellTutor

/-- Names with values. A name occurs once, at the place of its first assignment. -/
structure Variables where
  entries : List (String × String) := []
  deriving DecidableEq, Repr

namespace Variables

def get? (vars : Variables) (name : String) : Option String :=
  vars.entries.lookup name

def set (vars : Variables) (name value : String) : Variables :=
  ⟨Dictionary.put name value vars.entries⟩

/-- An assignment gives its own name the new value and leaves the others as they are. -/
theorem get?_set (vars : Variables) (name value other : String) :
    (vars.set name value).get? other = if other = name then some value else vars.get? other :=
  Dictionary.lookup_put name other value vars.entries

end Variables

/-- The part of a session that commands work on. -/
structure Environment where
  cwd : String
  /-- No command leads above this directory. -/
  home : String
  user : String
  tree : FileTree
  vars : Variables
  /-- The submitted lines, oldest first. -/
  history : List String
  now : Timestamp
  deriving DecidableEq, Repr

namespace Environment

variable (env : Environment)

def resolve (operand : String) : String :=
  Path.resolve env.cwd operand

def readOperand (operand : String) : Except ShellError String :=
  env.tree.readFrom env.cwd operand

end Environment

/-- The outcome of a command: what it gives back, or why it failed, and what it leaves behind. -/
abbrev Outcome := Except ShellError CommandOutput × Environment

end ShellTutor

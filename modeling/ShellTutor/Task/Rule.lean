import ShellTutor.Task.Event
import ShellTutor.Text.Lowercase

/-!
# Task rules

A rule says which event completes a task. Every condition that the rule sets has to hold of the
event and of the tree that it left, and the command must have succeeded.
-/

namespace ShellTutor

/-- Which redirect a rule asks for. -/
inductive RedirectRule where
  | any
  | overwrite
  | append
  deriving DecidableEq, Repr

/-- What a rule asks of a file. -/
structure FileRule where
  /-- The absolute path, if it is not the target of the event. -/
  path : Option String := none
  /-- Texts that all have to occur. -/
  contains : List String := []
  /-- Texts of which one has to occur. -/
  containsAny : List String := []
  /-- Whether the owner is to have the permission to execute. -/
  executable : Option Bool := none
  deriving DecidableEq, Repr

/-- What completes a task. -/
structure TaskRule where
  id : String
  description : String := ""
  /-- The first command. -/
  command : Option String := none
  /-- Arguments that the first command has to have. -/
  args : List String := []
  /-- Arguments that it must not have. -/
  notArgs : List String := []
  target : Option String := none
  /-- The form of the first argument, taken as a mode. -/
  mode : Option ModeKind := none
  file : Option FileRule := none
  /-- A text that has to occur in the line. -/
  lineContains : Option String := none
  /-- Commands that have to occur in the pipeline. -/
  uses : List String := []
  minStages : Nat := 1
  redirect : Option RedirectRule := none
  /-- A path that has to exist afterwards. -/
  pathExists : Option String := none
  /-- The working directory afterwards. -/
  cwd : Option String := none
  deriving DecidableEq, Repr

def RedirectRule.accepts : RedirectRule → Redirect → Bool
  | .any, _ => true
  | .overwrite, r => !r.append
  | .append, r => r.append

/-- Whether the file that a rule is about is as it asks. Letter case is ignored. -/
def FileRule.holds (rule : FileRule) (event : CommandEvent) (tree : FileTree) : Bool :=
  match (rule.path.or event.target).bind tree.get? with
  | none => false
  | some node =>
    match node.body with
    | .directory _ _ => false
    | .file content =>
      let found (needle : String) : Bool := Text.occursIgnoringCase needle content
      rule.contains.all found && (rule.containsAny.isEmpty || rule.containsAny.any found) &&
        rule.executable.all (node.permissions.owner.exec == ·)

/-- Whether an event completes the task, given the tree that it left. -/
def TaskRule.holds (rule : TaskRule) (event : CommandEvent) (tree : FileTree) : Bool :=
  event.succeeded &&
  (rule.redirect.all fun wanted => event.redirect.any wanted.accepts) &&
  decide (rule.minStages ≤ event.stages.length) &&
  (rule.command.all fun command => command.toLower == event.command.toLower) &&
  rule.args.all event.args.contains &&
  !rule.notArgs.any event.args.contains &&
  (rule.target.all fun target => event.target == some target) &&
  (rule.mode.all fun mode => event.args.head?.bind ModeKind.of? == some mode) &&
  rule.uses.all event.stages.contains &&
  (rule.lineContains.all fun text => Text.occurs text event.line) &&
  rule.pathExists.all tree.contains &&
  (rule.cwd.all fun cwd => cwd == event.cwd) &&
  (rule.file.all fun file => file.holds event tree)

end ShellTutor

import ShellTutor.Command.Builtin
import ShellTutor.Command.Line

/-!
# Running lines

A registry holds the commands of a session and may be restricted to an allowlist. A single stage
without redirect is run on its own. Everything else is a pipeline: each stage gets the non-empty
lines of the stage before it, the first stage that fails stops the whole, and only at the end is
something written, if there is a redirect. A command may also crash, and then the program is over.
-/

namespace ShellTutor

/-- The commands of a session. -/
structure Registry where
  commands : List Command := []
  /-- The lower-case names that are allowed, if not all are. -/
  allowed : Option (List String) := none
  deriving DecidableEq, Repr

namespace Registry

/-- A registry of all commands, without restriction. -/
def builtin : Registry := ⟨Command.builtins, none⟩

/-- The registry restricted to the given names, in whatever letter case. An empty list allows all
commands. -/
def restrict (reg : Registry) (names : List String) : Registry :=
  { reg with allowed := if names.isEmpty then none else some (names.map String.toLower) }

variable (reg : Registry)

/-- The command that is registered under a name in lower case. -/
def find? (key : String) : Option Command :=
  reg.commands.find? (·.name == key)

/-- Whether the allowlist lets a name in lower case pass. -/
def allows (key : String) : Bool :=
  reg.allowed.all (·.contains key)

/-- Whether a name is that of an enabled command. Help is always enabled. -/
def isEnabled (name : String) : Bool :=
  let key := name.toLower
  key == "help" || ((reg.find? key).isSome && reg.allows key)

def get? (name : String) : Option Command :=
  if reg.isEnabled name then reg.find? name.toLower else none

/-- The enabled commands, sorted by name. -/
def enabledCommands : List Command :=
  (reg.commands.filter fun cmd => reg.isEnabled cmd.name).mergeSort fun a b =>
    decide (a.name ≤ b.name)

end Registry

/-- The script that a word of the form `./script` names. -/
def scriptOf? (word : String) : Option String :=
  match word.toList with
  | '.' :: '/' :: c :: cs => some (String.ofList (c :: cs))
  | _ => none

/-- The name under which a first word is looked up: a leading `./` stands for running a script. -/
def commandKey (word : String) : String :=
  if (scriptOf? word).isSome then "./" else word.toLower

/-- The arguments of a stage. A script that is run is the first of them. -/
def stageArgs : List String → List String
  | [] => []
  | word :: args => (scriptOf? word).toList ++ args

namespace Registry

variable (reg : Registry)

/-- The enabled command of a stage, and its arguments. -/
def resolveStage (tokens : List String) : Except ShellError (Command × List String) :=
  let word := tokens.headD ""
  let key := commandKey word
  match reg.find? key with
  | some cmd =>
    if reg.isEnabled key then .ok (cmd, stageArgs tokens) else .error (.commandNotFound word)
  | none => .error (.commandNotFound word)

def checkArity (cmd : Command) (args : List String) : Except ShellError Unit :=
  if args.length < cmd.minArgs then .error (.wrongUsage cmd.usage) else .ok ()

def allowedAt (role : PipelineRole) (isFirst : Bool) : Bool :=
  match role with
  | .source => isFirst
  | .filter => true
  | .standalone => false

/-- What a stage gets from the data of the stage before it: the lines that are not empty. -/
def pipedInput (data : String) : Except ShellError String :=
  let lines := (Text.lines data).filter (· ≠ "")
  if lines.isEmpty then .error (.invalidArgument "no input from previous stage")
  else .ok (Text.unlines lines)

/-- What is needed to run a stage: the command, its arguments and its input. The first stage has no
data before it. -/
def prepareStage (data : Option String) (tokens : List String) :
    Except ShellError (Command × List String × Option String) := do
  let (cmd, args) ← reg.resolveStage tokens
  if !allowedAt cmd.role data.isNone then throw (.unsupportedInPipeline cmd.name)
  checkArity cmd args
  match data with
  | none => return (cmd, args, none)
  | some data => return (cmd, args, some (← pipedInput data))

def runStage (data : Option String) (tokens : List String) (env : Environment) :
    Except ShellError String × Environment :=
  match reg.prepareStage data tokens with
  | .error e => (.error e, env)
  | .ok (cmd, args, piped) =>
    let (result, env) := cmd.execute args piped env
    (result.map CommandOutput.data, env)

/-- Runs the stages from number `stage` on, with the data of the stage before. -/
def runStages (stage : Nat) (data : Option String) :
    List (List String) → Environment → Except ShellError String × Environment
  | [], env => (.ok (data.getD ""), env)
  | tokens :: rest, env =>
    match reg.runStage data tokens env with
    | (.error e, env) => (.error (e.inStage stage), env)
    | (.ok data, env) => runStages (stage + 1) (some data) rest env

/-- Runs a pipeline and returns the data of its last stage. -/
def runPipeline (stages : List (List String)) (env : Environment) :
    Except ShellError String × Environment :=
  reg.runStages 1 none stages env

def writeModeOf (r : Redirect) : WriteMode :=
  if r.append then .append else .overwrite

def writeRedirect (r : Redirect) (data : String) (env : Environment) : Outcome :=
  let (dir, name) := Path.splitParent (env.resolve r.target)
  match env.tree.writeFile dir name data (writeModeOf r) env.now with
  | .error e => (.error e, env)
  | .ok tree => (.ok .nothing, { env with tree })

def helpLine (name description : String) : String :=
  "    " ++ Text.alignLeft 12 name ++ " " ++ description ++ "\n"

/-- The names, descriptions and categories that `help` lists. -/
def helpEntries : List (String × String × String) :=
  ("help", "List available commands", "general") ::
    reg.enabledCommands.map fun cmd => (cmd.name, cmd.description, cmd.category)

/-- The list of all enabled commands, sorted by category and name. -/
def helpList : String :=
  let entries := reg.helpEntries
  let categories := (entries.map (·.2.2)).eraseDups.mergeSort fun a b => decide (a ≤ b)
  let block (category : String) : String :=
    let members := (entries.filter (·.2.2 == category)).mergeSort fun a b => decide (a.1 ≤ b.1)
    "\n  [" ++ category ++ "]\n" ++
      String.join (members.map fun (name, description, _) => helpLine name description)
  "Commands (" ++ toString entries.length ++ "):\n" ++ String.join (categories.map block) ++
    "\nType 'help <command>' for details."

/-- Answers `help`, with or without the name of a command. -/
def help (args : List String) : Except ShellError CommandOutput :=
  match args with
  | [] => .ok (.text reg.helpList)
  | name :: _ =>
    match reg.get? name with
    | some cmd =>
      .ok (.text (cmd.name ++ " (" ++ cmd.category ++ ")\n  " ++ cmd.description ++ "\n  Usage: " ++
        cmd.usage))
    | none =>
      if name.toLower = "help" then
        .ok (.text "help (general)\n  List available commands\n  Usage: help [command]")
      else .error (.invalidArgument ("no help for '" ++ name ++ "'"))

def dispatch (tokens : List String) (piped : Option String) (env : Environment) : Outcome :=
  if (tokens.headD "").toLower = "help" then (reg.help tokens.tail, env)
  else
    match reg.resolveStage tokens with
    | .error e => (.error e, env)
    | .ok (cmd, args) =>
      match checkArity cmd args with
      | .error e => (.error e, env)
      | .ok () => cmd.execute args piped env

/-- Runs a line that was read. Input that is piped from outside reaches only a stage that is run on
its own. -/
def run (line : ParsedLine) (piped : Option String) (env : Environment) : Outcome :=
  if line.isEmpty then (.ok .nothing, env)
  else if !line.isPipeline then reg.dispatch (line.stages.headD []) piped env
  else
    match reg.runPipeline line.stages env with
    | (.error e, env) => (.error e, env)
    | (.ok data, env) =>
      match line.redirect with
      | some r => writeRedirect r data env
      | none => (.ok (.text data), env)

def execute (line : String) (piped : Option String) (env : Environment) : Outcome :=
  match ParsedLine.parse line with
  | .error e => (.error e, env)
  | .ok parsed => reg.run parsed piped env

/-! ## Crashes -/

/-- Whether the command of a stage crashes. -/
def stageCrashes (data : Option String) (tokens : List String) (env : Environment) : Bool :=
  match reg.prepareStage data tokens with
  | .error _ => false
  | .ok (cmd, args, piped) => cmd.crashes args piped env

/-- Whether one of the stages crashes, with the data of the stage before. -/
def stagesCrash (data : Option String) : List (List String) → Environment → Bool
  | [], _ => false
  | tokens :: rest, env =>
    reg.stageCrashes data tokens env ||
      match reg.runStage data tokens env with
      | (.error _, _) => false
      | (.ok data, env) => stagesCrash (some data) rest env

def dispatchCrashes (tokens : List String) (piped : Option String) (env : Environment) : Bool :=
  if (tokens.headD "").toLower = "help" then false
  else
    match reg.resolveStage tokens with
    | .error _ => false
    | .ok (cmd, args) =>
      match checkArity cmd args with
      | .error _ => false
      | .ok () => cmd.crashes args piped env

/-- Whether a line crashes. -/
def crashes (line : ParsedLine) (piped : Option String) (env : Environment) : Bool :=
  if line.isEmpty then false
  else if !line.isPipeline then reg.dispatchCrashes (line.stages.headD []) piped env
  else reg.stagesCrash none line.stages env

/-- Runs a line that does not crash. -/
def run? (line : ParsedLine) (piped : Option String) (env : Environment) : Option Outcome :=
  if reg.crashes line piped env then none else some (reg.run line piped env)

def execute? (line : String) (piped : Option String) (env : Environment) : Option Outcome :=
  match ParsedLine.parse line with
  | .error e => some (.error e, env)
  | .ok parsed => reg.run? parsed piped env

end Registry

end ShellTutor

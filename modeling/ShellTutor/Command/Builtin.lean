import ShellTutor.Command.Admin
import ShellTutor.Command.Demo
import ShellTutor.Command.Filter.Count
import ShellTutor.Command.Filter.Cut
import ShellTutor.Command.Filter.Grep
import ShellTutor.Command.Filter.Sort
import ShellTutor.Command.Filter.Uniq
import ShellTutor.Command.Script

/-!
# The commands

Each command has a name, a description and a usage line, a category under which `help` lists it, the
least number of arguments, and a role that says where it may stand in a pipeline. Only standalone
commands change anything.
-/

namespace ShellTutor

/-- Where a command may stand in a pipeline. -/
inductive PipelineRole where
  /-- Only on its own: no pipe and no redirect. -/
  | standalone
  /-- At the start: it makes data. -/
  | source
  /-- Anywhere: it may take the data of the stage before it. -/
  | filter
  deriving DecidableEq, Repr

/-- The commands. -/
inductive Command where
  | pwd
  | cd
  | ls
  | mkdir
  | touch
  | cat
  | echo
  | chmod
  | history
  | clear
  | less
  | bash
  /-- Runs the script behind a leading `./`. -/
  | runScript
  | edit
  | nano
  | head
  | tail
  | wc
  | grep
  | sort
  | uniq
  | cut
  | demo
  | admin
  deriving DecidableEq, Repr

namespace Command

def name : Command → String
  | pwd => "pwd"
  | cd => "cd"
  | ls => "ls"
  | mkdir => "mkdir"
  | touch => "touch"
  | cat => "cat"
  | echo => "echo"
  | chmod => "chmod"
  | history => "history"
  | clear => "clear"
  | less => "less"
  | bash => "bash"
  | runScript => "./"
  | edit => "edit"
  | nano => "nano"
  | head => "head"
  | tail => "tail"
  | wc => "wc"
  | grep => "grep"
  | sort => "sort"
  | uniq => "uniq"
  | cut => "cut"
  | demo => "demo"
  | admin => "admin"

/-- What a command does, in a few words. -/
def description : Command → String
  | pwd => "Print working directory"
  | cd => "Change working directory"
  | ls => "List directory contents"
  | mkdir => "Create a directory"
  | touch => "Create an empty file or refresh its timestamp"
  | cat => "Display file contents"
  | echo => "Print text"
  | chmod => "Change file permissions (octal or symbolic)"
  | history => "Show command history"
  | clear => "Clear terminal output"
  | less => "View a file one page at a time"
  | bash => "Run a shell script"
  | runScript => "Run an executable script"
  | edit => "Edit a file line by line"
  | nano => "Edit a file line by line"
  | head => "Show first N lines"
  | tail => "Show last N lines"
  | wc => "Count lines, words, and characters"
  | grep => "Search for a pattern (case-insensitive)"
  | sort => "Sort lines of text"
  | uniq => "Remove duplicate lines"
  | cut => "Extract delimited fields"
  | demo => "Create an example script"
  | admin => "Run a function of the admin tool"

def usage : Command → String
  | pwd => "pwd"
  | cd => "cd [path]"
  | ls => "ls [-l] [-d] [path]"
  | mkdir => "mkdir <dir...>"
  | touch => "touch <file...>"
  | cat => "cat [-n] <file...>"
  | echo => "echo [text...]"
  | chmod => "chmod <mode> <file...>"
  | history => "history"
  | clear => "clear"
  | less => "less <file>"
  | bash => "bash <script>"
  | runScript => "./<script>"
  | edit => "edit <file>"
  | nano => "nano <file>"
  | head => "head [-n N | -N] [file]"
  | tail => "tail [-n N | -N] [file]"
  | wc => "wc [-l|-w|-c] [file]"
  | grep => "grep [-n] [-v] [-c] <pattern> [file]"
  | sort => "sort [-r] [-n] [file]"
  | uniq => "uniq [-c] [file]"
  | cut => "cut -d<delim> -f<fields> [file]"
  | demo => "demo <basic|variables|conditions|loops|functions>"
  | admin => "admin <system-info|process-monitor|log-analysis|backup|file-manager>"

/-- The group of commands under which `help` lists a command. -/
def category : Command → String
  | pwd | cd | ls | mkdir | touch | cat | less | edit | nano => "files"
  | chmod => "permissions"
  | bash | runScript | demo | admin => "scripting"
  | head | tail | wc | grep | sort | uniq | cut => "text"
  | echo | history | clear => "general"

def minArgs : Command → Nat
  | chmod => 2
  | mkdir | touch | cat | less | bash | runScript | edit | nano | grep | admin => 1
  | _ => 0

def role : Command → PipelineRole
  | ls | cat | echo => .source
  | head | tail | wc | grep | sort | uniq | cut => .filter
  | _ => .standalone

def mutates : Command → Bool
  | mkdir | touch | chmod | demo | admin => true
  | _ => false

/-- Runs a command on its arguments, with what is piped into it. -/
def execute (cmd : Command) (args : List String) (piped : Option String) (env : Environment) :
    Outcome :=
  match cmd with
  | pwd => (.ok (.text env.cwd), env)
  | cd => Files.changeDirectory args env
  | ls => (Files.list args env, env)
  | mkdir => Files.makeDirectories args env
  | touch => Files.touchFiles args env
  | cat => (Files.concatenate cat.usage args env, env)
  | echo => (.ok (Files.echo args), env)
  | chmod => Files.changeModes args env
  | history => (.ok (Files.history env), env)
  | clear => (.ok .clear, env)
  | less => (Files.page args env, env)
  | bash => Script.runOperand (args.headD "") env
  | runScript => Script.execute (args.headD "") env
  | edit => (Files.edit args env, env)
  | nano => (Files.edit args env, env)
  | head => (Filter.head head.usage args piped env, env)
  | tail => (Filter.tail tail.usage args piped env, env)
  | wc => (Filter.count wc.usage args piped env, env)
  | grep => (Filter.grep grep.usage args piped env, env)
  | sort => (Filter.sort sort.usage args piped env, env)
  | uniq => (Filter.uniq uniq.usage args piped env, env)
  | cut => (Filter.cut cut.usage args piped env, env)
  | demo => Demo.run args env
  | admin => Admin.run args env

/-- Whether a command crashes, so that there is no result, not even an error. -/
def crashes (cmd : Command) (args : List String) (piped : Option String) (env : Environment) :
    Bool :=
  match cmd with
  | sort => Filter.sortCrashes sort.usage args piped env
  | _ => false

/-- Runs a command that does not crash. -/
def execute? (cmd : Command) (args : List String) (piped : Option String) (env : Environment) :
    Option Outcome :=
  if cmd.crashes args piped env then none else some (cmd.execute args piped env)

def textCommands : List Command :=
  [head, tail, wc, grep, sort, uniq, cut]

def lessonCommands : List Command :=
  [demo, admin]

def builtins : List Command :=
  [pwd, cd, ls, mkdir, touch, cat, echo, chmod, history, clear, less, bash, runScript, edit,
    nano] ++ textCommands ++ lessonCommands

end Command

end ShellTutor

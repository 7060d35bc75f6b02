/-!
# Why a command fails

Every failure is a cause, and `ShellError.message` gives its wording. A failure inside a pipeline
also says at which stage it arose; of several failures the first is the one that is reported.
-/

namespace ShellTutor

/-- The causes of failure. -/
inductive ShellError where
  | notFound (name : String)
  | alreadyExists (name : String)
  | notADirectory (name : String)
  | isADirectory (name : String)
  | permissionDenied (name : String)
  /-- The text says what is wrong with the argument. -/
  | invalidArgument (text : String)
  | unsupportedInPipeline (command : String)
  /-- The stage, counted from one, at which a pipeline stopped, and why it did. -/
  | pipelineAborted (stage : Nat) (source : ShellError)
  | commandNotFound (command : String)
  | config (text : String)
  | io (text : String)
  | toml (text : String)
  | json (text : String)
  deriving DecidableEq, Repr

namespace ShellError

def message : ShellError → String
  | .notFound name => name ++ ": No such file or directory"
  | .alreadyExists name => name ++ ": File exists"
  | .notADirectory name => name ++ ": Not a directory"
  | .isADirectory name => name ++ ": Is a directory"
  | .permissionDenied name => name ++ ": Permission denied"
  | .invalidArgument text => text
  | .unsupportedInPipeline command => command ++ ": not supported in a pipeline"
  | .pipelineAborted stage source =>
    "pipeline aborted at stage " ++ toString stage ++ ": " ++ source.message
  | .commandNotFound command => command ++ ": command not found"
  | .config text => "config error: " ++ text
  | .io text => "I/O error: " ++ text
  | .toml text => "TOML parse error: " ++ text
  | .json text => "JSON error: " ++ text

/-- The failure of a pipeline at `stage`. A failure that names its stage keeps it. -/
def inStage (stage : Nat) : ShellError → ShellError
  | .pipelineAborted first source => .pipelineAborted first source
  | error => .pipelineAborted stage error

def wrongUsage (usage : String) : ShellError :=
  invalidArgument ("usage: " ++ usage)

/-- A mode that `chmod` cannot read. -/
def invalidMode (mode : String) : ShellError :=
  invalidArgument ("invalid mode: '" ++ mode ++ "'")

def invalidName (name : String) : ShellError :=
  invalidArgument ("invalid name: '" ++ name ++ "'")

def invalidOption (flag : Char) : ShellError :=
  invalidArgument ("invalid option -- '" ++ flag.toString ++ "'")

/-- A token that the grammar of lines does not allow where it stands. -/
def unexpectedToken (token : String) : ShellError :=
  invalidArgument ("syntax error near unexpected token '" ++ token ++ "'")

end ShellError

end ShellTutor

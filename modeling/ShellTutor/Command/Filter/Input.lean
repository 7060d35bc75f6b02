import ShellTutor.Command.Environment

/-!
# Where a filter reads

A filter reads the file that it is given, else what is piped into it. Without either it is not
called as its usage line says.
-/

namespace ShellTutor.Filter

def input (usage : String) (env : Environment) (piped file : Option String) :
    Except ShellError String :=
  match file, piped with
  | some operand, _ => env.readOperand operand
  | none, some text => .ok text
  | none, none => .error (.wrongUsage usage)

end ShellTutor.Filter

import Mathlib.Tactic.SplitIfs
import ShellTutor.Proofs.Command.Pipeline

/-!
# What a stage reads

A filter gets its text from one place: the file that one of its words names, or else what is piped
in. So it does the same in any two environments in which each of its words reads the same, and with
it does every stage but the first, since only filters may stand there.
-/

namespace ShellTutor

/-- Two environments in which each of the words reads the same. -/
def Environment.ReadsAlike (env env' : Environment) (words : List String) : Prop :=
  ∀ word ∈ words, env'.readOperand word = env.readOperand word

theorem Environment.ReadsAlike.mono {env env' : Environment} {words fewer : List String}
    (h : env.ReadsAlike env' words) (hsubset : fewer ⊆ words) : env.ReadsAlike env' fewer :=
  fun word hword => h word (hsubset hword)

namespace Filter

section Options

-- `named` gives the words that options remember as files, whatever the filter
variable {σ : Type} (named : σ → List String)

end Options

section Alike

variable {usage : String} {args : List String} {piped : Option String} {env env' : Environment}
  (h : env.ReadsAlike env' args)
include h

end Alike

end Filter

namespace Registry

variable {reg : Registry}

end Registry

end ShellTutor

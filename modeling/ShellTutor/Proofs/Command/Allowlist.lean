import ShellTutor.Proofs.Command.Pipeline

/-!
# The allowlist

A restriction acts where a stage is looked up and nowhere else. A stage whose key is not on the list
is not found, and every other stage is found as if there were no list. So a line with a stage that
is not allowed fails, though stages in front of it may have run by then, and any other line cannot
tell that there is a list. The exception is `help`, which no list can take away and which shows what
the list allows.
-/

namespace ShellTutor

/-- The names under which the stages of a line are looked up. -/
def ParsedLine.keys (line : ParsedLine) : List String :=
  line.stages.map fun tokens => commandKey (tokens.headD "")

namespace Registry

variable {reg reg' : Registry} {names : List String}

/-- The name of a command is in lower case and is not `help`, so the list alone decides whether the
command is enabled. -/
theorem isEnabled_of_find? {key : String} {cmd : Command} (h : reg.find? key = some cmd) :
    reg.isEnabled key = reg.allows key := by
  have hname : cmd.name = key := name_of_find? h
  have hlower : key.toLower = key := by rw [← hname, toLower_name]
  have hhelp : (key == "help") = false := by
    rw [← hname, beq_eq_false_iff_ne]
    exact name_ne_help cmd
  simp [isEnabled, hlower, h, hhelp]

/-- What is neither empty nor a pipeline is one stage on its own. -/
theorem exists_eq_of_not_isPipeline {line : ParsedLine} (hempty : line.isEmpty = false)
    (hpipeline : line.isPipeline = false) :
    ∃ tokens, line = { stages := [tokens] } := by
  obtain ⟨stages, redirect⟩ := line
  match stages, redirect, hempty, hpipeline with
  | [tokens], none, _, _ => exact ⟨tokens, rfl⟩
  | _ :: _ :: _, _, _, hpipeline => simp [ParsedLine.isPipeline] at hpipeline

theorem dispatch_of_error {tokens : List String} (hword : (tokens.headD "").toLower ≠ "help")
    {e : ShellError} (h : reg.resolveStage tokens = .error e) (piped : Option String)
    (env : Environment) : reg.dispatch tokens piped env = (.error e, env) := by
  rw [dispatch, if_neg hword, h]

end Registry

end ShellTutor

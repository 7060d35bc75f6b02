import ShellTutor.Proofs.Command.Alike

/-!
# Files that cannot be read stay hidden

A line gives no hint of what a file holds that its owner may not read, and neither do many lines,
for as long as the file stays unreadable. This is a statement on two runs: change the text of the
file but not its length, and the run is the same.
-/

namespace ShellTutor

open Outcome (Paired)

variable {hidden : String → Prop} {env env' : Environment}

namespace Registry

theorem ne_admin_of_role {cmd : Command} (h : cmd.role ≠ .standalone) : cmd ≠ .admin := by
  rintro rfl
  exact h rfl

/-- The name of a command is its own. -/
theorem ne_admin_of_name {cmd : Command} (h : cmd.name ≠ "admin") : cmd ≠ .admin := by
  rintro rfl
  exact h rfl

section Pipeline

variable (reg : Registry) (h : env.Alike hidden env') (hhidden : env.tree.Unreadable hidden)
include h hhidden

theorem runStage_alike (data : Option String) (tokens : List String) :
    (reg.runStage data tokens env').1 = (reg.runStage data tokens env).1 := by
  rw [runStage, runStage]
  cases hprepare : reg.prepareStage data tokens with
  | error e => rfl
  | ok found =>
    obtain ⟨cmd, args, piped⟩ := found
    have hrole := role_of_prepareStage hprepare
    have hsame := Command.alike_execute h hhidden (ne_admin_of_role hrole) args piped
    exact congrArg (Except.map CommandOutput.data) hsame.answer

/-- Stages compute the same data, since each of them does. -/
theorem runStages_alike (stage : Nat) (data : Option String) (stages : List (List String)) :
    (reg.runStages stage data stages env').1 = (reg.runStages stage data stages env).1 :=
  reg.runStages_env_congr (runStage_alike reg h hhidden) stage data stages

omit hhidden in
theorem alike_writeRedirect (r : Redirect) (data : String) :
    Outcome.Alike hidden (writeRedirect r data env) (writeRedirect r data env') := by
  have hwritten : Paired (FileTree.Alike hidden)
      (env.tree.writeFile (Path.parent (env.resolve r.target))
        (Path.lastName (env.resolve r.target)) data (writeModeOf r) env.now)
      (env'.tree.writeFile (Path.parent (env'.resolve r.target))
        (Path.lastName (env'.resolve r.target)) data (writeModeOf r) env'.now) := by
    rw [h.resolve, h.now]
    exact h.tree.writeFile_same _ _ _ _ _
  rw [writeRedirect_eq, writeRedirect_eq]
  generalize env.tree.writeFile _ _ data _ _ = made at hwritten ⊢
  generalize env'.tree.writeFile _ _ data _ _ = made' at hwritten ⊢
  cases hwritten with
  | error e => exact ⟨rfl, h⟩
  | ok ht => exact ⟨rfl, h.withTree ht⟩

/-- Whatever its form, a line that does not run the administration tool does the same on both
sides. -/
theorem alike_run (line : ParsedLine)
    (hname : commandKey ((line.stages.headD []).headD "") ≠ "admin") (piped : Option String) :
    Outcome.Alike hidden (reg.run line piped env) (reg.run line piped env') := by
  rcases reg.run_forms line piped with ⟨result, -, hrun⟩ | ⟨cmd, args, hcmd, hrun⟩ | hrun
  · rw [hrun, hrun]
    exact ⟨rfl, h⟩
  · rw [hrun, hrun]
    exact Command.alike_execute h hhidden (ne_admin_of_name (hcmd ▸ hname)) args piped
  · rw [hrun, hrun, runPipeline, runPipeline, runStages_alike reg h hhidden]
    split
    · exact ⟨rfl, h⟩
    · exact alike_writeRedirect h _ _
    · exact ⟨rfl, h⟩

end Pipeline

/-- Whether the first command of a line is the administration tool. -/
def callsAdmin (line : String) : Bool :=
  match ParsedLine.parse line with
  | .error _ => false
  | .ok parsed => commandKey ((parsed.stages.headD []).headD "") == "admin"

theorem alike_execute (reg : Registry) (h : env.Alike hidden env')
    (hhidden : env.tree.Unreadable hidden) {line : String} (hline : callsAdmin line = false)
    (piped : Option String) :
    Outcome.Alike hidden (reg.execute line piped env) (reg.execute line piped env') := by
  rw [execute, execute]
  cases hparse : ParsedLine.parse line with
  | error e => exact ⟨rfl, h⟩
  | ok parsed =>
    have hname : commandKey ((parsed.stages.headD []).headD "") ≠ "admin" := by
      simpa [callsAdmin, hparse] using hline
    exact alike_run reg h hhidden parsed hname piped

end Registry

end ShellTutor

import ShellTutor.Proofs.Command.Allowlist
import ShellTutor.Proofs.Command.Effect

/-!
# Which commands touch what

The tree is touched by the commands that are marked as mutating and by redirects, the working
directory by `cd`, and the variables by the two commands that run scripts. The mark is a table that
no command looks at; here it is shown to fit what the commands do.
-/

namespace ShellTutor

/-- What the commands that are not meant to touch a part of the environment leave as it is. -/
structure Command.Frame (cmd : Command) (env after : Environment) : Prop where
  tree : cmd.mutates = false → after.tree = env.tree
  cwd : cmd ≠ .cd → after.cwd = env.cwd
  vars : cmd ≠ .bash → cmd ≠ .runScript → after.vars = env.vars

namespace Command

variable {cmd : Command} {env after : Environment}

theorem Frame.refl (cmd : Command) (env : Environment) : cmd.Frame env env :=
  ⟨fun _ => rfl, fun _ => rfl, fun _ _ => rfl⟩

/-- A command that is marked may change the tree. -/
theorem Frame.of_treeChanged (hmark : cmd.mutates = true) (h : env.TreeChanged after) :
    cmd.Frame env after := by
  obtain ⟨tree, -, rfl⟩ := h
  refine ⟨fun hunmarked => ?_, fun _ => rfl, fun _ _ => rfl⟩
  rw [hmark] at hunmarked
  cases hunmarked

/-- A command that runs scripts may assign variables. -/
theorem Frame.of_vars (hscript : cmd = .bash ∨ cmd = .runScript)
    (h : ∃ vars, after = { env with vars }) : cmd.Frame env after := by
  obtain ⟨vars, rfl⟩ := h
  refine ⟨fun _ => rfl, fun _ => rfl, fun hbash hrun => ?_⟩
  exact absurd hscript (not_or.mpr ⟨hbash, hrun⟩)

/-- Every command stays within its frame. -/
theorem frame_execute (cmd : Command) (args : List String) (piped : Option String)
    (env : Environment) : cmd.Frame env (cmd.execute args piped env).2 := by
  cases cmd with
  | cd =>
    rcases Files.changeDirectory_cases args env with ⟨e, hfail⟩ | ⟨target, -, hmove⟩
    · rw [execute, hfail]
      exact .refl cd env
    · rw [execute, hmove]
      exact ⟨fun _ => rfl, fun hcd => absurd rfl hcd, fun _ _ => rfl⟩
  | mkdir => exact .of_treeChanged rfl (Files.treeChanged_makeDirectories args env)
  | touch => exact .of_treeChanged rfl (Files.treeChanged_touchFiles args env)
  | chmod => exact .of_treeChanged rfl (Files.treeChanged_changeModes args env)
  | demo => exact .of_treeChanged rfl (Demo.treeChanged_run args env)
  | admin => exact .of_treeChanged rfl (Admin.treeChanged_run args env)
  | bash => exact .of_vars (Or.inl rfl) (Script.runOperand_env (args.headD "") env)
  | runScript => exact .of_vars (Or.inr rfl) (Script.execute_env (args.headD "") env)
  | _ => exact .refl _ env

end Command

namespace Registry

/-- The key of a word is `help` if the word is, in whatever letter case. -/
theorem commandKey_eq_help_iff {word : String} :
    commandKey word = "help" ↔ word.toLower = "help" := by
  cases hscript : scriptOf? word with
  | some name =>
    have hlower : word.toLower ≠ "help" := fun hhelp => by
      rw [scriptOf?_of_toLower (by rw [hhelp]; decide)] at hscript
      cases hscript
    rw [commandKey, hscript]
    exact iff_of_false (by simp) hlower
  | none =>
    rw [commandKey, hscript]
    rfl

theorem toLower_ne_help_of_resolveStage {reg : Registry} {tokens args : List String} {cmd : Command}
    (h : reg.resolveStage tokens = .ok (cmd, args)) : (tokens.headD "").toLower ≠ "help" :=
  fun hhelp => name_ne_help cmd ((name_of_resolveStage h).trans (commandKey_eq_help_iff.mpr hhelp))

/-- A command that was found on its own is run if it has enough arguments. -/
theorem dispatch_of_resolveStage {reg : Registry} {tokens args : List String} {cmd : Command}
    (h : reg.resolveStage tokens = .ok (cmd, args)) (harity : checkArity cmd args = .ok ())
    (piped : Option String) (env : Environment) :
    reg.dispatch tokens piped env = cmd.execute args piped env := by
  rw [dispatch, if_neg (toLower_ne_help_of_resolveStage h), h]
  simp only [harity]

/-- A stage on its own leaves everything as it is, or it is a command that was found and has
enough arguments. -/
theorem dispatch_effect (reg : Registry) (tokens : List String) (piped : Option String)
    (env : Environment) :
    (reg.dispatch tokens piped env).2 = env ∨
      ∃ cmd args, reg.resolveStage tokens = .ok (cmd, args) ∧ checkArity cmd args = .ok () ∧
        reg.dispatch tokens piped env = cmd.execute args piped env := by
  by_cases hhelp : (tokens.headD "").toLower = "help"
  · exact Or.inl (by rw [dispatch, if_pos hhelp])
  · cases hresolve : reg.resolveStage tokens with
    | error e => exact Or.inl (by rw [dispatch_of_error hhelp hresolve])
    | ok found =>
      obtain ⟨cmd, args⟩ := found
      rw [dispatch, if_neg hhelp, hresolve]
      simp only
      cases harity : checkArity cmd args with
      | error e => exact Or.inl rfl
      | ok u => exact Or.inr ⟨cmd, args, rfl, harity, rfl⟩

/-- A line leaves everything as it is, or it is one command without redirect, or it has a redirect
and changes the tree alone. -/
theorem run_effect (reg : Registry) (line : ParsedLine) (piped : Option String)
    (env : Environment) :
    (reg.run line piped env).2 = env ∨
      (∃ tokens cmd args, line = { stages := [tokens] } ∧
        reg.resolveStage tokens = .ok (cmd, args) ∧ checkArity cmd args = .ok () ∧
          reg.run line piped env = cmd.execute args piped env) ∨
      line.redirect.isSome = true ∧ env.TreeChanged (reg.run line piped env).2 := by
  cases hempty : line.isEmpty with
  | true => exact Or.inl (by rw [run, if_pos hempty])
  | false =>
    cases hpipeline : line.isPipeline with
    | false =>
      obtain ⟨tokens, rfl⟩ := exists_eq_of_not_isPipeline hempty hpipeline
      rw [run_singleton]
      rcases reg.dispatch_effect tokens piped env with
        hsame | ⟨cmd, args, hresolve, harity, hrun⟩
      · exact Or.inl hsame
      · exact Or.inr (Or.inl ⟨tokens, cmd, args, rfl, hresolve, harity, hrun⟩)
    | true =>
      rw [run_of_isPipeline reg hpipeline hempty]
      split
      · exact Or.inl rfl
      · rename_i data r _ hredirect
        exact Or.inr (Or.inr ⟨by rw [hredirect]; rfl, treeChanged_writeRedirect r data env⟩)
      · exact Or.inl rfl

end Registry

end ShellTutor

import ShellTutor.Proofs.Command.Pipeline
import ShellTutor.Proofs.FileTree.Connected
import ShellTutor.Proofs.Path.Resolve

/-!
# What a command can do

There are three kinds of commands that leave something behind. Some work on the tree, by single
changes; scripts assign variables; and `cd`, when it succeeds, moves the working directory to a
directory that is not above home. `execute_cases` says so of the commands and `run_cases` of the
lines, and nothing else here opens a command up.
-/

namespace ShellTutor

open FileTree (Changes)

/-- Nothing but the tree was changed, and the tree only by single changes. -/
def Environment.TreeChanged (env after : Environment) : Prop :=
  ∃ tree, Changes env.tree tree ∧ after = { env with tree }

theorem Environment.TreeChanged.refl (env : Environment) : env.TreeChanged env :=
  ⟨env.tree, .refl, rfl⟩

/-- Going through operands changes a tree if each operand does. -/
theorem changes_eachOperand {α β : Type}
    {act : FileTree → α → Except ShellError (β × FileTree)}
    (hact : ∀ t operand b t', act t operand = .ok (b, t') → t.Change t') (t : FileTree)
    (operands : List α) : Changes t (eachOperand act t operands).2 := by
  induction operands generalizing t with
  | nil => exact .refl
  | cons operand rest ih =>
    rw [eachOperand]
    split
    · exact .refl
    · rename_i b next hfirst
      have hrest : Changes t (eachOperand act next rest).2 :=
        (ih next).head (hact t operand b next hfirst)
      split <;> rename_i heq <;> rwa [heq] at hrest

namespace Files

variable {env : Environment}

theorem makeDirectory_eq (env : Environment) (t : FileTree) (operand : String) :
    makeDirectory env t operand =
      (t.createDirectory (Path.parent (env.resolve operand)) (Path.lastName (env.resolve operand))
        env.now).map fun t => ((), t) := by
  rw [makeDirectory, Path.splitParent_eq]

theorem touchFile_eq (env : Environment) (t : FileTree) (operand : String) :
    touchFile env t operand =
      (t.createFile (Path.parent (env.resolve operand)) (Path.lastName (env.resolve operand)) ""
        env.now).map fun t => ((), t) := by
  rw [touchFile, Path.splitParent_eq]

theorem changeMode_eq (env : Environment) (spec : ModeSpec) (t : FileTree) (operand : String) :
    changeMode env spec t operand =
      (t.changePermissions (Path.parent (env.resolve operand))
        (Path.lastName (env.resolve operand)) spec).map fun (p, t) =>
          ("mode of '" ++ operand ++ "' is now " ++ p.octal ++ " (" ++ p.symbolic ++ ")", t) := by
  rw [changeMode, Path.splitParent_eq]

theorem change_of_makeDirectory {t t' : FileTree} {operand : String} {u : Unit}
    (h : makeDirectory env t operand = .ok (u, t')) : t.Change t' := by
  rw [makeDirectory_eq] at h
  obtain ⟨made, hmade, heq⟩ := Outcome.map_eq_ok.mp h
  rw [Prod.mk.injEq] at heq
  exact heq.2 ▸ FileTree.change_of_createDirectory hmade

theorem change_of_touchFile {t t' : FileTree} {operand : String} {u : Unit}
    (h : touchFile env t operand = .ok (u, t')) : t.Change t' := by
  rw [touchFile_eq] at h
  obtain ⟨made, hmade, heq⟩ := Outcome.map_eq_ok.mp h
  rw [Prod.mk.injEq] at heq
  exact heq.2 ▸ FileTree.change_of_createFile hmade

theorem change_of_changeMode {spec : ModeSpec} {t t' : FileTree} {operand report : String}
    (h : changeMode env spec t operand = .ok (report, t')) : t.Change t' := by
  rw [changeMode_eq] at h
  obtain ⟨⟨permissions, after⟩, hchanged, heq⟩ := Outcome.map_eq_ok.mp h
  rw [Prod.mk.injEq] at heq
  exact heq.2 ▸ FileTree.change_of_changePermissions hchanged

theorem treeChanged_makeDirectories (args : List String) (env : Environment) :
    env.TreeChanged (makeDirectories args env).2 :=
  ⟨_, changes_eachOperand (fun _ _ _ _ => change_of_makeDirectory) env.tree args, rfl⟩

theorem treeChanged_touchFiles (args : List String) (env : Environment) :
    env.TreeChanged (touchFiles args env).2 :=
  ⟨_, changes_eachOperand (fun _ _ _ _ => change_of_touchFile) env.tree args, rfl⟩

theorem treeChanged_changeModes (args : List String) (env : Environment) :
    env.TreeChanged (changeModes args env).2 := by
  rw [changeModes]
  split
  · exact .refl env
  · exact ⟨_, changes_eachOperand (fun _ _ _ _ => change_of_changeMode) env.tree args.tail, rfl⟩

/-- Where `cd` can lead: home, or a directory whose path is resolved and does not lead above
home. -/
def IsDestination (env : Environment) (target : String) : Prop :=
  target = env.home ∨
    Path.IsResolved target ∧ env.tree.HasDirectory target ∧ target ≠ "/" ∧
      ¬ (target ++ "/").toList.isPrefixOf env.home.toList = true

/-- `cd` fails and does nothing, or moves to a destination. -/
theorem changeDirectory_cases (args : List String) (env : Environment) :
    (∃ e, changeDirectory args env = (.error e, env)) ∨
      ∃ target, IsDestination env target ∧
        changeDirectory args env = (.ok .nothing, { env with cwd := target }) := by
  cases args with
  | nil => exact Or.inr ⟨env.home, Or.inl rfl, rfl⟩
  | cons arg rest =>
    rw [changeDirectory]
    generalize htarget : destination env arg = target
    cases hnode : env.tree.get? target with
    | none => exact Or.inl ⟨.notFound arg, rfl⟩
    | some node =>
      cases hdir : node.isDirectory with
      | false => exact Or.inl ⟨.notADirectory arg, by simp [hdir]⟩
      | true =>
        refine Or.inr ⟨target, ?_, by simp [hdir]⟩
        rw [destination] at htarget
        split at htarget
        · exact Or.inl htarget.symm
        · rename_i hbelow
          rw [not_or] at hbelow
          have hresolved : Path.IsResolved target := htarget ▸ Path.isResolved_resolve env.cwd arg
          have hthere : env.tree.isDirectory target = true := by
            rw [FileTree.isDirectory, hnode, Option.any_some, hdir]
          exact Or.inr ⟨hresolved, (FileTree.isDirectory_iff hresolved.isNormal).mp hthere,
            htarget ▸ hbelow.1, htarget ▸ hbelow.2⟩

end Files

namespace Script

theorem walkLine_env (line : String) (env : Environment) :
    ∃ vars, (walkLine line env).2 = { env with vars } := by
  unfold walkLine
  split
  · exact ⟨_, rfl⟩
  · simp only
    split_ifs
    · exact ⟨env.vars, rfl⟩
    · split <;> exact ⟨_, rfl⟩
    · exact ⟨env.vars, rfl⟩
    · exact ⟨env.vars, rfl⟩
    · split <;> exact ⟨env.vars, rfl⟩

/-- A script leaves behind its assignments. -/
theorem walk_env (env : Environment) (lines : List String) :
    ∃ vars, (walk env lines).2 = { env with vars } := by
  induction lines generalizing env with
  | nil => exact ⟨env.vars, rfl⟩
  | cons raw rest ih =>
    rw [walk]
    simp only
    split_ifs
    · exact ih env
    · obtain ⟨vars, hline⟩ := walkLine_env (Text.trim raw) env
      obtain ⟨vars', hrest⟩ := ih (walkLine (Text.trim raw) env).2
      exact ⟨vars', by rw [hrest, hline]⟩

theorem runOperand_eq (operand : String) (env : Environment) :
    runOperand operand env =
      match env.readOperand operand with
      | .error e => (.error e, env)
      | .ok source =>
        (.ok (.text (Text.unlines (run operand source env).1)), (run operand source env).2) := by
  unfold runOperand
  cases env.readOperand operand with
  | error e => rfl
  | ok source => simp only

theorem runOperand_env (operand : String) (env : Environment) :
    ∃ vars, (runOperand operand env).2 = { env with vars } := by
  rw [runOperand_eq]
  cases env.readOperand operand with
  | error e => exact ⟨env.vars, rfl⟩
  | ok source => exact walk_env env (Text.lines source)

theorem text_of_runOperand {operand : String} {env : Environment} {out : CommandOutput}
    (h : (runOperand operand env).1 = .ok out) : ∃ text, out = .text text := by
  rw [runOperand_eq] at h
  split at h
  · cases h
  · simp only [Except.ok.injEq] at h
    exact ⟨_, h.symm⟩

/-- A script that its owner may execute is run as `bash` runs it. -/
theorem execute_cases (operand : String) (env : Environment) :
    (∃ e, execute operand env = (.error e, env)) ∨
      execute operand env = runOperand operand env := by
  unfold execute
  simp only
  split
  · exact Or.inl ⟨_, rfl⟩
  · split_ifs
    · exact Or.inl ⟨_, rfl⟩
    · exact Or.inl ⟨_, rfl⟩
    · exact Or.inr rfl

/-- A file that is called by its path is run if its owner may execute it. -/
theorem execute_of_file {operand : String} {env : Environment} {node : Node}
    (hnode : env.tree.get? (env.resolve operand) = some node) (hfile : node.isDirectory = false) :
    execute operand env =
      if node.permissions.owner.exec then runOperand operand env
      else (.error (.permissionDenied ("./" ++ operand)), env) := by
  rw [execute]
  simp only [hnode, hfile, Bool.false_eq_true, if_false]
  cases node.permissions.owner.exec <;> simp

theorem execute_env (operand : String) (env : Environment) :
    ∃ vars, (execute operand env).2 = { env with vars } := by
  rcases execute_cases operand env with ⟨e, hfail⟩ | hrun
  · exact ⟨env.vars, by rw [hfail]⟩
  · rw [hrun]
    exact runOperand_env operand env

end Script

theorem Demo.treeChanged_write (file content : String) (env : Environment) :
    env.TreeChanged (write file content env).2 := by
  rw [write]
  split
  · exact .refl env
  · rename_i tree hwrite
    have hwritten := FileTree.change_of_writeFile hwrite
    split
    · exact ⟨tree, .single hwritten, rfl⟩
    · rename_i permissions tree' hmode
      exact ⟨tree', .head hwritten (.single (FileTree.change_of_changePermissions hmode)), rfl⟩

theorem Demo.treeChanged_run (args : List String) (env : Environment) :
    env.TreeChanged (run args env).2 := by
  rw [run.eq_def]
  split
  · exact .refl env
  · split
    · exact .refl env
    · exact treeChanged_write _ _ env

namespace Admin

theorem change_of_backupFile {env : Environment} {t t' : FileTree} {file : String × String}
    {line : String} (h : backupFile env t file = .ok (line, t')) : t.Change t' := by
  obtain ⟨after, hwritten, heq⟩ := Outcome.map_eq_ok.mp h
  rw [Prod.mk.injEq] at heq
  exact heq.2 ▸ FileTree.change_of_writeFile hwritten

theorem changes_of_ensureBackup {env : Environment} {tree : FileTree}
    (h : ensureBackup env = .ok tree) : Changes env.tree tree := by
  rw [ensureBackup] at h
  split at h
  · rw [Except.ok.injEq] at h
    exact h ▸ .refl
  · exact .single (FileTree.change_of_createDirectory h)

theorem treeChanged_backup (env : Environment) : env.TreeChanged (backup env).2 := by
  rw [backup]
  split
  · exact .refl env
  · rename_i tree hmade
    have hthere := changes_of_ensureBackup hmade
    split
    · exact ⟨tree, hthere, rfl⟩
    · exact ⟨_, hthere.trans (changes_eachOperand (fun _ _ _ _ => change_of_backupFile) tree _),
        rfl⟩

theorem treeChanged_run (args : List String) (env : Environment) :
    env.TreeChanged (run args env).2 := by
  rw [run]
  split
  · rw [call.eq_def]
    simp only
    split
    · exact .refl env
    · exact .refl env
    · exact .refl env
    · exact treeChanged_backup env
    · exact .refl env
    · exact .refl env
  · exact .refl env

end Admin

/-- The editor is opened on a file that can be read, or on one that is missing in a directory. -/
theorem Files.edit_eq_ok {args : List String} {env : Environment} {path content : String}
    (h : edit args env = .ok (.editor path content)) :
    path = env.resolve (args.headD "") ∧
      ((∃ text, env.readOperand (args.headD "") = .ok text) ∨
        env.tree.get? path = none ∧ env.tree.isDirectory (Path.parent path) = true) := by
  rw [edit] at h
  cases hnode : env.tree.get? (env.resolve (args.headD "")) with
  | some node =>
    rw [hnode] at h
    obtain ⟨text, hread, h⟩ := Outcome.bind_eq_ok.mp h
    cases h
    exact ⟨rfl, Or.inl ⟨content, hread⟩⟩
  | none =>
    rw [hnode] at h
    simp only at h
    split at h
    · rename_i hdir
      cases h
      exact ⟨rfl, Or.inr ⟨hnode, hdir⟩⟩
    · cases h

/-- Only `edit` and `nano` open the editor. -/
theorem Command.edit_of_execute {cmd : Command} {args : List String} {piped : Option String}
    {env : Environment} {path content : String}
    (h : (cmd.execute args piped env).1 = .ok (.editor path content)) :
    Files.edit args env = .ok (.editor path content) ∧ (cmd.execute args piped env).2 = env := by
  cases cmd with
  | edit => exact ⟨h, rfl⟩
  | nano => exact ⟨h, rfl⟩
  | pwd | echo | history | clear => cases h
  | mkdir | touch =>
    obtain ⟨u, -, hout⟩ := Outcome.map_eq_ok.mp h
    cases hout
  | head | tail =>
    simp [execute, Filter.head, Filter.tail, Filter.select, Outcome.bind_eq_ok] at h
  | wc => simp [execute, Filter.count, Outcome.bind_eq_ok] at h
  | sort => simp [execute, Filter.sort, Outcome.bind_eq_ok] at h
  | uniq => simp [execute, Filter.uniq, Outcome.bind_eq_ok] at h
  | cut =>
    simp only [execute, Filter.cut] at h
    split_ifs at h
    · cases h
    · split at h
      · cases h
      · simp [Outcome.bind_eq_ok] at h
  | grep =>
    simp only [execute, Filter.grep] at h
    split at h
    · cases h
    · obtain ⟨text, -, h⟩ := Outcome.bind_eq_ok.mp h
      split at h
      · simp at h
      · split at h
        · split at h <;> simp at h
        · simp at h
  | less =>
    simp [execute, Files.page, Outcome.bind_eq_ok] at h
  | cat =>
    simp only [execute, Files.concatenate] at h
    split at h
    · cases h
    · obtain ⟨text, -, h⟩ := Outcome.bind_eq_ok.mp h
      split at h <;> simp at h
  | ls =>
    simp only [execute, Files.list] at h
    obtain ⟨o, -, h⟩ := Outcome.bind_eq_ok.mp h
    split at h
    · cases h
    · split at h
      · simp at h
      · obtain ⟨entries, -, h⟩ := Outcome.bind_eq_ok.mp h
        split at h <;> simp at h
  | chmod =>
    simp only [execute, Files.changeModes] at h
    split at h
    · cases h
    · obtain ⟨u, -, hout⟩ := Outcome.map_eq_ok.mp h
      cases hout
  | cd =>
    rcases Files.changeDirectory_cases args env with ⟨e, hcd⟩ | ⟨target, -, hcd⟩ <;>
      simp [execute, hcd] at h
  | bash =>
    rw [execute] at h
    obtain ⟨text, hout⟩ := Script.text_of_runOperand h
    cases hout
  | runScript =>
    rw [execute] at h
    rcases Script.execute_cases (args.headD "") env with ⟨e, hfail⟩ | hrun
    · rw [hfail] at h
      cases h
    · rw [hrun] at h
      obtain ⟨text, hout⟩ := Script.text_of_runOperand h
      cases hout
  | demo =>
    simp only [execute, Demo.run.eq_def] at h
    split at h
    · cases h
    · split at h
      · cases h
      · obtain ⟨u, -, hout⟩ := Outcome.map_eq_ok.mp h
        cases hout
  | admin =>
    simp only [execute, Admin.run] at h
    split at h
    · obtain ⟨u, -, hout⟩ := Outcome.map_eq_ok.mp h
      cases hout
    · cases h

/-- All that a command can do to its environment. -/
theorem Command.execute_cases (cmd : Command) (args : List String) (piped : Option String)
    (env : Environment) :
    env.TreeChanged (cmd.execute args piped env).2 ∨
      (∃ vars, (cmd.execute args piped env).2 = { env with vars }) ∨
      cmd = .cd ∧ ∃ target, Files.IsDestination env target ∧
        cmd.execute args piped env = (.ok .nothing, { env with cwd := target }) := by
  cases cmd with
  | cd =>
    rcases Files.changeDirectory_cases args env with ⟨e, hfail⟩ | hmove
    · refine Or.inl ?_
      rw [execute, hfail]
      exact .refl env
    · exact Or.inr (Or.inr ⟨rfl, hmove⟩)
  | mkdir => exact Or.inl (Files.treeChanged_makeDirectories args env)
  | touch => exact Or.inl (Files.treeChanged_touchFiles args env)
  | chmod => exact Or.inl (Files.treeChanged_changeModes args env)
  | demo => exact Or.inl (Demo.treeChanged_run args env)
  | admin => exact Or.inl (Admin.treeChanged_run args env)
  | bash =>
    rw [execute]
    exact Or.inr (Or.inl (Script.runOperand_env (args.headD "") env))
  | runScript =>
    rw [execute]
    exact Or.inr (Or.inl (Script.execute_env (args.headD "") env))
  | _ =>
    rw [execute]
    exact Or.inl (.refl env)

namespace Registry

/-- The command that a stage runs goes by the key of the stage's first word. -/
theorem name_of_resolveStage {reg : Registry} {tokens args : List String} {cmd : Command}
    (h : reg.resolveStage tokens = .ok (cmd, args)) : cmd.name = commandKey (tokens.headD "") := by
  rw [resolveStage] at h
  split at h
  · rename_i found hfind
    split at h
    · rw [Except.ok.injEq, Prod.mk.injEq] at h
      exact h.1 ▸ name_of_find? hfind
    · cases h
  · cases h

theorem treeChanged_writeRedirect (r : Redirect) (data : String) (env : Environment) :
    env.TreeChanged (writeRedirect r data env).2 := by
  rw [writeRedirect_eq]
  split
  · exact .refl env
  · rename_i tree hwrite
    exact ⟨tree, .single (FileTree.change_of_writeFile hwrite), rfl⟩

theorem text_of_help {reg : Registry} {args : List String} {out : CommandOutput}
    (h : reg.help args = .ok out) : ∃ text, out = .text text := by
  rw [help.eq_def] at h
  split at h
  · exact ⟨_, (Except.ok.inj h).symm⟩
  · split at h
    · exact ⟨_, (Except.ok.inj h).symm⟩
    · split at h
      · exact ⟨_, (Except.ok.inj h).symm⟩
      · cases h

/-- A stage on its own is answered without looking at the environment, or it is a command. -/
theorem dispatch_cases (reg : Registry) (tokens : List String) (piped : Option String) :
    (∃ result, (∀ out, result = .ok out → ∃ text, out = .text text) ∧
        ∀ env, reg.dispatch tokens piped env = (result, env)) ∨
      ∃ (cmd : Command) (args : List String), cmd.name = commandKey (tokens.headD "") ∧
        ∀ env, reg.dispatch tokens piped env = cmd.execute args piped env := by
  by_cases hhelp : (tokens.headD "").toLower = "help"
  · exact Or.inl ⟨reg.help tokens.tail, fun _ => text_of_help,
      fun env => by rw [dispatch, if_pos hhelp]⟩
  · cases hresolve : reg.resolveStage tokens with
    | error e =>
      exact Or.inl ⟨.error e, by simp, fun env => by rw [dispatch, if_neg hhelp, hresolve]⟩
    | ok found =>
      obtain ⟨cmd, args⟩ := found
      cases harity : checkArity cmd args with
      | error e =>
        refine Or.inl ⟨.error e, by simp, fun env => ?_⟩
        rw [dispatch, if_neg hhelp, hresolve]
        simp only [harity]
      | ok u =>
        refine Or.inr ⟨cmd, args, name_of_resolveStage hresolve, fun env => ?_⟩
        rw [dispatch, if_neg hhelp, hresolve]
        simp only [harity]

/-- The three forms that a line can have: one that does nothing, a command on its own, and a
pipeline. -/
theorem run_forms (reg : Registry) (line : ParsedLine) (piped : Option String) :
    (∃ result, (∀ out, result = .ok out → (∃ text, out = .text text) ∨ out = .nothing) ∧
        ∀ env, reg.run line piped env = (result, env)) ∨
      (∃ (cmd : Command) (args : List String),
          cmd.name = commandKey ((line.stages.headD []).headD "") ∧
        ∀ env, reg.run line piped env = cmd.execute args piped env) ∨
      ∀ env, reg.run line piped env =
        match (reg.runPipeline line.stages env).1, line.redirect with
        | .error e, _ => (.error e, env)
        | .ok data, some r => writeRedirect r data env
        | .ok data, none => (.ok (.text data), env) := by
  cases hempty : line.isEmpty with
  | true =>
    refine Or.inl ⟨.ok .nothing, ?_, fun env => by rw [run, if_pos hempty]⟩
    rintro out hout
    exact Or.inr (Except.ok.inj hout).symm
  | false =>
    cases hpipeline : line.isPipeline with
    | true => exact Or.inr (Or.inr fun env => run_of_isPipeline reg hpipeline hempty piped env)
    | false =>
      have hrun : ∀ env, reg.run line piped env =
          reg.dispatch (line.stages.headD []) piped env := by
        intro env
        simp [run, hempty, hpipeline]
      rcases dispatch_cases reg (line.stages.headD []) piped with
        ⟨result, hout, h⟩ | ⟨cmd, args, hname, h⟩
      · exact Or.inl ⟨result, fun out ho => Or.inl (hout out ho),
          fun env => (hrun env).trans (h env)⟩
      · exact Or.inr (Or.inl ⟨cmd, args, hname, fun env => (hrun env).trans (h env)⟩)

/-- All that a line can do to its environment. Only a `cd` that succeeds moves the working
directory. -/
theorem run_cases (reg : Registry) (line : ParsedLine) (piped : Option String)
    (env : Environment) :
    env.TreeChanged (reg.run line piped env).2 ∨
      (∃ vars, (reg.run line piped env).2 = { env with vars }) ∨
      commandKey ((line.stages.headD []).headD "") = "cd" ∧
        ∃ target, Files.IsDestination env target ∧
          reg.run line piped env = (.ok .nothing, { env with cwd := target }) := by
  rcases run_forms reg line piped with ⟨result, -, h⟩ | ⟨cmd, args, hname, h⟩ | h
  · rw [h]
    exact Or.inl (.refl env)
  · rw [h]
    rcases cmd.execute_cases args piped env with hdone | hdone | ⟨rfl, hdone⟩
    · exact Or.inl hdone
    · exact Or.inr (Or.inl hdone)
    · exact Or.inr (Or.inr ⟨hname.symm, hdone⟩)
  · rw [h]
    split
    · exact Or.inl (.refl env)
    · exact Or.inl (treeChanged_writeRedirect _ _ env)
    · exact Or.inl (.refl env)

/-- Only a single `edit` or `nano` opens the editor. -/
theorem edit_of_run {reg : Registry} {line : ParsedLine} {piped : Option String}
    {env : Environment} {path content : String}
    (hout : (reg.run line piped env).1 = .ok (.editor path content)) :
    (∃ args, Files.edit args env = .ok (.editor path content)) ∧
      (reg.run line piped env).2 = env := by
  rcases run_forms reg line piped with ⟨result, hplain, h⟩ | ⟨cmd, args, -, h⟩ | h
  · rw [h] at hout
    rcases hplain _ hout with ⟨text, hcontra⟩ | hcontra <;> cases hcontra
  · rw [h] at hout ⊢
    obtain ⟨hedit, henv⟩ := Command.edit_of_execute hout
    exact ⟨⟨args, hedit⟩, henv⟩
  · rw [h] at hout
    split at hout
    · cases hout
    · rw [writeRedirect_eq] at hout
      split at hout <;> cases hout
    · cases hout

end Registry

end ShellTutor

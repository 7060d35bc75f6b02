import ShellTutor.Proofs.Command.Effect
import ShellTutor.Proofs.Path.Spelling

/-!
# Commands and the spelling of directories

The working directory and home may be spelled in many ways. Commands look things up, write and
resolve in them, all of which goes by the normal form, so running a command commutes with bringing
both to normal form. Two things show the spelling. What `pwd`, scripts and the administration tool
print is text, which no other stage takes in. And `cd` compares home with a path as texts, for which
home has to start with the directory that it lies in.
-/

namespace ShellTutor

open Outcome (Paired)

namespace FileTree

variable (t : FileTree) {p q : String} (h : Path.normalize p = Path.normalize q)
include h

theorem get?_congr : t.get? p = t.get? q := by
  rw [get?, get?, h]

theorem contains_congr : t.contains p = t.contains q := by
  rw [contains, contains, t.get?_congr h]

theorem list_congr : t.list p = t.list q := by
  unfold list
  rw [h]

theorem createDirectory_congr (name : String) (now : Timestamp) :
    t.createDirectory p name now = t.createDirectory q name now := by
  unfold createDirectory
  rw [h]

theorem writeFile_congr (name content : String) (mode : WriteMode) (now : Timestamp) :
    t.writeFile p name content mode now = t.writeFile q name content mode now := by
  unfold writeFile
  rw [h]

theorem changePermissions_congr (name : String) (spec : ModeSpec) :
    t.changePermissions p name spec = t.changePermissions q name spec := by
  unfold changePermissions
  rw [h]

end FileTree

/-- The same environment with its directories in normal form. -/
def Environment.normal (env : Environment) : Environment :=
  { env with cwd := Path.normalize env.cwd, home := Path.normalize env.home }

/-- The same outcome, with the directories that it leaves in normal form. -/
def Outcome.normal {α : Type} (out : Except ShellError α × Environment) :
    Except ShellError α × Environment :=
  (out.1, out.2.normal)

namespace Environment

variable (env : Environment)

@[simp] theorem home_normal : env.normal.home = Path.normalize env.home := rfl

@[simp] theorem tree_normal : env.normal.tree = env.tree := rfl

@[simp] theorem now_normal : env.normal.now = env.now := rfl

theorem normalize_cwd_normal : Path.normalize env.normal.cwd = Path.normalize env.cwd :=
  Path.normalize_normalize env.cwd

theorem normalize_home_normal : Path.normalize env.normal.home = Path.normalize env.home :=
  Path.normalize_normalize env.home

theorem normalize_join_home_normal (name : String) :
    Path.normalize (Path.join env.normal.home name) = Path.normalize (Path.join env.home name) :=
  Path.normalize_join_normalize env.home name

theorem resolve_normal : env.normal.resolve = env.resolve := by
  funext operand
  exact Path.resolve_normalize env.cwd operand

theorem readOperand_normal : env.normal.readOperand = env.readOperand := by
  funext operand
  rw [readOperand, readOperand, FileTree.readFrom_eq, FileTree.readFrom_eq]
  exact congrArg (fun path => env.tree.read (Path.parent path) (Path.lastName path))
    (Path.resolve_normalize env.cwd operand)

end Environment

namespace Files

variable (env : Environment)

/-- With either spelling of home, `cd` leads to the same directory. -/
theorem destination_normal (h : Path.StartsWithParent env.home) (arg : String) :
    destination env.normal arg = Path.normalize (destination env arg) := by
  rw [destination, destination, env.resolve_normal, env.home_normal]
  have hpath : Path.IsNormal (env.resolve arg) := Path.isNormal_resolve env.cwd arg
  have hhome := Path.isNormal_normalize env.home
  generalize env.resolve arg = path at hpath ⊢
  simp only [List.isPrefixOf_iff_prefix]
  split
  -- what is above home is written out at the start of each such spelling
  · rename_i habove
    have hspelled : path = "/" ∨ (path ++ "/").toList <+: env.home.toList :=
      habove.elim Or.inl fun hprefix => h.root_or_startsWith hpath
        (Path.isAbove_normalize.mp (Path.isAbove_of_startsWith hpath hhome hprefix))
    rw [if_pos hspelled]
  · rename_i hnot
    split
    -- and what is not above home, but starts its spelling, is home
    · rename_i hspelled
      rcases hspelled with hroot | hprefix
      · exact absurd (Or.inl hroot) hnot
      · rcases Path.eq_or_isAbove_of_startsWith hpath hprefix with heq | habove
        · exact heq.symm
        · refine absurd ?_ hnot
          simpa only [List.isPrefixOf_iff_prefix] using
            (Path.isAbove_normalize.mpr habove).root_or_isPrefixOf hpath hhome
    · exact hpath.symm

/-- From home, `cd ..` leads home exactly if home starts with the directory that it lies in. -/
theorem destination_dotdot_iff (hplain : ∀ c ∈ Path.components env.home, c ≠ "." ∧ c ≠ "..")
    (hcwd : env.cwd = env.home) :
    Path.normalize (destination env "..") = Path.normalize env.home ↔
      Path.StartsWithParent env.home := by
  have hup : env.resolve ".." = Path.parent (Path.normalize env.home) := by
    rw [Environment.resolve, hcwd, Path.resolve_dotdot_of_plain hplain]
  rw [destination, hup, Path.StartsWithParent]
  simp only [List.isPrefixOf_iff_prefix]
  split
  · rename_i habove
    exact iff_of_true rfl habove
  · rename_i hnot
    refine iff_of_false (fun hsame => ?_) hnot
    have hhome := Path.isNormal_normalize env.home
    rw [hhome.parent] at hsame
    obtain ⟨dir, name, hdir, hname, hjoin⟩ :=
      hhome.exists_join fun hroot => hnot (Or.inl (by rw [hroot]; decide +kernel))
    rw [hjoin, Path.parent_join hdir hname] at hsame
    exact Path.join_ne_dir hdir hname hsame.symm

theorem changeDirectory_normal (h : Path.StartsWithParent env.home) (args : List String) :
    changeDirectory args env.normal = Outcome.normal (changeDirectory args env) := by
  cases args with
  | nil => rfl
  | cons arg rest =>
    rw [changeDirectory, changeDirectory, destination_normal env h]
    generalize destination env arg = target
    simp only [env.tree_normal, env.tree.get?_congr (Path.normalize_normalize target)]
    cases env.tree.get? target with
    | none => rfl
    | some node =>
      simp only
      split <;> rfl

/-- With or without an operand, the same directory is listed. -/
theorem list_normal (args : List String) : list args env.normal = list args env := by
  unfold list
  cases args.foldlM ListOptions.word {} with
  | error e => simp only [Outcome.error_bind]
  | ok o =>
    have hpath : Path.normalize ((o.operand.map env.normal.resolve).getD env.normal.cwd) =
        Path.normalize ((o.operand.map env.resolve).getD env.cwd) := by
      rw [env.resolve_normal]
      cases o.operand with
      | none => exact env.normalize_cwd_normal
      | some operand => rfl
    simp only [Outcome.ok_bind, env.tree_normal, env.tree.get?_congr hpath,
      env.tree.list_congr hpath]

theorem makeDirectories_normal (args : List String) :
    makeDirectories args env.normal = Outcome.normal (makeDirectories args env) := by
  have hsame : makeDirectory env.normal = makeDirectory env := by
    funext t operand
    rw [makeDirectory_eq, makeDirectory_eq, env.resolve_normal]
    rfl
  rw [makeDirectories, makeDirectories, hsame]
  rfl

theorem touchFiles_normal (args : List String) :
    touchFiles args env.normal = Outcome.normal (touchFiles args env) := by
  have hsame : touchFile env.normal = touchFile env := by
    funext t operand
    rw [touchFile_eq, touchFile_eq, env.resolve_normal]
    rfl
  rw [touchFiles, touchFiles, hsame]
  rfl

theorem changeModes_normal (args : List String) :
    changeModes args env.normal = Outcome.normal (changeModes args env) := by
  unfold changeModes
  cases ModeSpec.ofString (args.headD "") with
  | error e => rfl
  | ok spec =>
    have hsame : changeMode env.normal spec = changeMode env spec := by
      funext t operand
      rw [changeMode_eq, changeMode_eq, env.resolve_normal]
    simp only [hsame]
    rfl

theorem concatenate_normal (usage : String) (args : List String) :
    concatenate usage args env.normal = concatenate usage args env := by
  unfold concatenate
  rw [env.readOperand_normal]

theorem page_normal (args : List String) : page args env.normal = page args env := by
  unfold page
  rw [env.readOperand_normal]

theorem edit_normal (args : List String) : edit args env.normal = edit args env := by
  unfold edit
  rw [env.resolve_normal, env.readOperand_normal, env.tree_normal]

end Files

theorem Filter.input_normal (usage : String) (env : Environment) (piped file : Option String) :
    input usage env.normal piped file = input usage env piped file := by
  unfold input
  rw [env.readOperand_normal]

/-- A command that can stand in a pipeline gives back the same. -/
theorem Command.answer_normal {cmd : Command} (h : cmd.role ≠ .standalone) (args : List String)
    (piped : Option String) (env : Environment) :
    (cmd.execute args piped env.normal).1 = (cmd.execute args piped env).1 := by
  have hinput := fun usage => Filter.input_normal usage env
  cases cmd with
  | ls => exact Files.list_normal env args
  | cat => exact Files.concatenate_normal env cat.usage args
  | echo => rfl
  | head => simp only [execute, Filter.head, Filter.select, hinput]
  | tail => simp only [execute, Filter.tail, Filter.select, hinput]
  | wc => simp only [execute, Filter.count, hinput]
  | grep => simp only [execute, Filter.grep, hinput]
  | sort => simp only [execute, Filter.sort, hinput]
  | uniq => simp only [execute, Filter.uniq, hinput]
  | cut => simp only [execute, Filter.cut, hinput]
  | _ => exact absurd rfl h

/-- The same output, or text in its place. -/
inductive CommandOutput.Like : CommandOutput → CommandOutput → Prop
  | same (out : CommandOutput) : Like out out
  | text (shown shown' : String) : Like (.text shown) (.text shown')

/-- How a command ends for two spellings: alike, and with the same places left. -/
structure Outcome.Respelled (out out' : Outcome) : Prop where
  answer : Paired CommandOutput.Like out.1 out'.1
  left : out'.2 = out.2.normal

theorem Outcome.Respelled.of_eq {out out' : Outcome} (h : out' = Outcome.normal out) :
    Outcome.Respelled out out' := by
  subst h
  exact ⟨.refl .same out.1, rfl⟩

namespace Script

variable (env : Environment)

/-- Assignments are told by the text of a script. -/
theorem walkLine_normal (line : String) :
    (walkLine line env.normal).2 = (walkLine line env).2.normal := by
  unfold walkLine
  cases assignment? line.toList with
  | some assigned => rfl
  | none =>
    simp only
    split_ifs
    · rfl
    · cases (lineWords line.toList).tail.head? <;> rfl
    · rfl
    · rfl
    · cases lineWords line.toList <;> rfl

theorem walk_normal (lines : List String) :
    (walk env.normal lines).2 = (walk env lines).2.normal := by
  induction lines generalizing env with
  | nil => rfl
  | cons raw rest ih =>
    rw [walk, walk]
    simp only
    split_ifs
    · exact ih env
    · rw [walkLine_normal, ih]

theorem respelled_runOperand (operand : String) :
    Outcome.Respelled (runOperand operand env) (runOperand operand env.normal) := by
  rw [runOperand_eq, runOperand_eq, env.readOperand_normal]
  cases env.readOperand operand with
  | error e => exact .of_eq rfl
  | ok source =>
    refine ⟨.ok (.text _ _), ?_⟩
    simp only [run]
    exact walk_normal env (Text.lines source)

theorem respelled_execute (operand : String) :
    Outcome.Respelled (execute operand env) (execute operand env.normal) := by
  unfold execute
  simp only [env.resolve_normal, env.tree_normal]
  cases env.tree.get? (env.resolve operand) with
  | none => exact .of_eq rfl
  | some node =>
    simp only
    split_ifs
    · exact .of_eq rfl
    · exact .of_eq rfl
    · exact respelled_runOperand env operand

end Script

namespace Demo

theorem write_normal (file content : String) (env : Environment) :
    write file content env.normal = Outcome.normal (write file content env) := by
  have hplace := env.normalize_cwd_normal
  rw [write, write, env.tree_normal, env.now_normal, env.tree.writeFile_congr hplace]
  cases env.tree.writeFile env.cwd file content .overwrite env.now with
  | error e => rfl
  | ok tree =>
    simp only [tree.changePermissions_congr hplace]
    cases tree.changePermissions env.cwd file mode with
    | error e => rfl
    | ok changed => rfl

theorem run_normal (args : List String) (env : Environment) :
    run args env.normal = Outcome.normal (run args env) := by
  cases args with
  | nil => rfl
  | cons kind rest =>
    rw [run, run]
    cases scripts.lookup kind with
    | none => rfl
    | some source =>
      simp only [write_normal]
      rfl

end Demo

namespace Admin

variable (env : Environment)

theorem isReady_normal : isReady env.normal = isReady env := by
  rw [isReady, isReady, env.tree_normal,
    env.tree.get?_congr (env.normalize_join_home_normal toolScript)]

theorem logAnalysis_normal : logAnalysis env.normal = logAnalysis env := by
  rw [logAnalysis, logAnalysis, env.tree_normal,
    env.tree.list_congr (env.normalize_join_home_normal "logs")]

theorem ensureBackup_normal : ensureBackup env.normal = ensureBackup env := by
  rw [ensureBackup, ensureBackup, env.tree_normal,
    env.tree.contains_congr (env.normalize_join_home_normal "backup"),
    env.tree.createDirectory_congr env.normalize_home_normal]
  rfl

theorem backupFile_normal : backupFile env.normal = backupFile env := by
  funext t file
  rw [backupFile, backupFile, t.writeFile_congr (env.normalize_join_home_normal "backup")]
  rfl

theorem backup_normal : backup env.normal = Outcome.normal (backup env) := by
  rw [backup, backup, ensureBackup_normal, backupFile_normal]
  cases ensureBackup env with
  | error e => rfl
  | ok tree =>
    simp only [tree.list_congr env.normalize_home_normal]
    cases tree.list env.home with
    | error e => rfl
    | ok entries => rfl

/-- Only what is printed can show the spelling: the report on the system and the listing do. -/
theorem call_normal (function : String) :
    Paired (fun _ _ => True) (call function env).1 (call function env.normal).1 ∧
      (call function env.normal).2 = (call function env).2.normal := by
  rw [call.eq_def, call.eq_def]
  split
  · exact ⟨.ok trivial, rfl⟩
  · exact ⟨.ok trivial, rfl⟩
  · rw [logAnalysis_normal]
    exact ⟨.refl (fun _ => trivial) _, rfl⟩
  · rw [backup_normal]
    exact ⟨.refl (fun _ => trivial) _, rfl⟩
  · refine ⟨?_, rfl⟩
    rw [fileManager, fileManager, env.tree_normal, env.tree.list_congr env.normalize_cwd_normal]
    cases env.tree.list env.cwd with
    | error e => exact .error e
    | ok entries => exact .ok trivial
  · exact ⟨.error _, rfl⟩

theorem respelled_run (args : List String) :
    Outcome.Respelled (run args env) (run args env.normal) := by
  obtain ⟨hanswer, hleft⟩ := call_normal env (args.headD "")
  rw [run, run, isReady_normal]
  split
  · exact ⟨hanswer.map fun _ _ _ => .text _ _, hleft⟩
  · exact .of_eq rfl

end Admin

/-- Every command does the same for each spelling of the working directory, and of home if that
starts with the directory it lies in. -/
theorem Command.respelled_execute (cmd : Command) (args : List String) (piped : Option String)
    {env : Environment} (h : Path.StartsWithParent env.home) :
    Outcome.Respelled (cmd.execute args piped env) (cmd.execute args piped env.normal) := by
  by_cases hrole : cmd.role = .standalone
  · cases cmd with
    | pwd => exact ⟨.ok (.text _ _), rfl⟩
    | history | clear => exact .of_eq rfl
    | cd => exact .of_eq (Files.changeDirectory_normal env h args)
    | mkdir => exact .of_eq (Files.makeDirectories_normal env args)
    | touch => exact .of_eq (Files.touchFiles_normal env args)
    | chmod => exact .of_eq (Files.changeModes_normal env args)
    | less => exact .of_eq (congrArg (·, env.normal) (Files.page_normal env args))
    | edit | nano => exact .of_eq (congrArg (·, env.normal) (Files.edit_normal env args))
    | bash => exact Script.respelled_runOperand env (args.headD "")
    | runScript => exact Script.respelled_execute env (args.headD "")
    | demo => exact .of_eq (Demo.run_normal args env)
    | admin => exact Admin.respelled_run env args
    | _ => cases hrole
  · exact .of_eq (Prod.ext (answer_normal hrole args piped env)
      ((execute_env hrole args piped env.normal).trans
        (congrArg Environment.normal (execute_env hrole args piped env).symm)))

namespace Registry

variable (reg : Registry)

theorem runStage_normal (data : Option String) (tokens : List String) (env : Environment) :
    (reg.runStage data tokens env.normal).1 = (reg.runStage data tokens env).1 := by
  rw [runStage, runStage]
  cases hprepare : reg.prepareStage data tokens with
  | error e => rfl
  | ok found =>
    obtain ⟨cmd, args, piped⟩ := found
    exact congrArg (Except.map CommandOutput.data)
      (Command.answer_normal (role_of_prepareStage hprepare) args piped env)

theorem writeRedirect_normal (r : Redirect) (data : String) (env : Environment) :
    writeRedirect r data env.normal = Outcome.normal (writeRedirect r data env) := by
  rw [writeRedirect_eq, writeRedirect_eq, env.resolve_normal, env.tree_normal, env.now_normal]
  split <;> rfl

/-- Whatever its form, a line does the same for each spelling. -/
theorem respelled_run (line : ParsedLine) (piped : Option String) {env : Environment}
    (h : Path.StartsWithParent env.home) :
    Outcome.Respelled (reg.run line piped env) (reg.run line piped env.normal) := by
  rcases reg.run_forms line piped with ⟨result, -, hrun⟩ | ⟨cmd, args, -, hrun⟩ | hrun
  · rw [hrun, hrun]
    exact .of_eq rfl
  · rw [hrun, hrun]
    exact cmd.respelled_execute args piped h
  · have hdata : (reg.runPipeline line.stages env.normal).1 = (reg.runPipeline line.stages env).1 :=
      reg.runStages_env_congr (fun data tokens => reg.runStage_normal data tokens env) 1 none
        line.stages
    rw [hrun, hrun, hdata]
    split
    · exact .of_eq rfl
    · exact .of_eq (writeRedirect_normal _ _ env)
    · exact .of_eq rfl

end Registry

end ShellTutor

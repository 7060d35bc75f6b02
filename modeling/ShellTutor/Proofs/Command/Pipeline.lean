import ShellTutor.Command.Registry
import ShellTutor.Proofs.FileTree.Locality

/-!
# Pipelines and redirects

No command that a pipeline admits changes the environment, so a pipeline only ever computes data;
what it leaves behind is the one write of its redirect. The same commands give the same output in
and out of a pipeline, and so a redirect stores what its line would have shown.
-/

namespace ShellTutor

/-- A command with a place in a pipeline changes nothing. -/
theorem Command.execute_env {cmd : Command} (h : cmd.role ≠ .standalone) (args : List String)
    (piped : Option String) (env : Environment) : (cmd.execute args piped env).2 = env := by
  cases cmd <;> first | exact absurd rfl h | rfl

theorem ShellError.inStage_inStage (e : ShellError) (first later : Nat) :
    (e.inStage first).inStage later = e.inStage first := by
  cases e <;> rfl

namespace Registry

variable {reg : Registry}

theorem role_of_allowedAt {role : PipelineRole} {isFirst : Bool}
    (h : allowedAt role isFirst = true) : role ≠ .standalone := by
  rintro rfl
  cases h

def stageInput : Option String → Except ShellError (Option String)
  | none => .ok none
  | some data => (pipedInput data).map some

/-- A stage is looked up, and then its place, its arguments and its input are checked. -/
theorem prepareStage_eq (reg : Registry) (data : Option String) (tokens : List String) :
    reg.prepareStage data tokens =
      match reg.resolveStage tokens with
      | .error e => .error e
      | .ok (cmd, args) =>
        if allowedAt cmd.role data.isNone then
          match checkArity cmd args with
          | .error e => .error e
          | .ok () => (stageInput data).map fun piped => (cmd, args, piped)
        else .error (.unsupportedInPipeline cmd.name) := by
  rw [prepareStage]
  cases reg.resolveStage tokens with
  | error e => rfl
  | ok found =>
    obtain ⟨cmd, args⟩ := found
    simp only [Outcome.ok_bind]
    generalize allowedAt cmd.role data.isNone = place
    cases place with
    | false => simp
    | true =>
      cases checkArity cmd args with
      | error e => simp
      | ok u =>
        cases data with
        | none => simp [stageInput]
        | some data => cases hinput : pipedInput data <;> simp [stageInput, hinput]

/-- A stage can be run if its command is found and may stand there, and if it has enough arguments
and its input. -/
theorem prepareStage_eq_ok {data : Option String} {tokens args : List String} {cmd : Command}
    {piped : Option String} :
    reg.prepareStage data tokens = .ok (cmd, args, piped) ↔
      reg.resolveStage tokens = .ok (cmd, args) ∧ allowedAt cmd.role data.isNone = true ∧
        checkArity cmd args = .ok () ∧ stageInput data = .ok piped := by
  rw [prepareStage_eq]
  cases reg.resolveStage tokens with
  | error e => simp
  | ok found =>
    obtain ⟨found, given⟩ := found
    simp only [Except.ok.injEq, Prod.mk.injEq]
    constructor
    · intro h
      split at h
      · rename_i hplace
        split at h
        · cases h
        · rename_i harity
          obtain ⟨input, hinput, hfound⟩ := Outcome.map_eq_ok.mp h
          simp only [Prod.mk.injEq] at hfound
          obtain ⟨rfl, rfl, rfl⟩ := hfound
          exact ⟨⟨rfl, rfl⟩, hplace, harity, hinput⟩
      · cases h
    · rintro ⟨⟨rfl, rfl⟩, hplace, harity, hinput⟩
      rw [if_pos hplace, harity, hinput]
      rfl

theorem role_of_prepareStage {data : Option String} {tokens args : List String} {cmd : Command}
    {piped : Option String} (h : reg.prepareStage data tokens = .ok (cmd, args, piped)) :
    cmd.role ≠ .standalone :=
  role_of_allowedAt (prepareStage_eq_ok.mp h).2.1

theorem runStage_env (reg : Registry) (data : Option String) (tokens : List String)
    (env : Environment) : (reg.runStage data tokens env).2 = env := by
  rw [runStage]
  split
  · rfl
  · rename_i cmd args piped hprepare
    exact Command.execute_env (role_of_prepareStage hprepare) args piped env

/-- Whatever its stages do and wherever it stops, a pipeline changes nothing. -/
theorem runStages_env (reg : Registry) (stage : Nat) (data : Option String)
    (stages : List (List String)) (env : Environment) :
    (reg.runStages stage data stages env).2 = env := by
  induction stages generalizing stage data with
  | nil => rfl
  | cons tokens rest ih =>
    have hstage := reg.runStage_env data tokens env
    rw [runStages]
    split
    · rename_i e after hrun
      rwa [hrun] at hstage
    · rename_i next after hrun
      rw [hrun] at hstage
      subst hstage
      exact ih (stage + 1) (some next)

/-- What comes of a pipeline is what comes of its first stage, or of the others after it. -/
theorem runStages_cons (reg : Registry) (stage : Nat) (data : Option String)
    (tokens : List String) (rest : List (List String)) (env : Environment) :
    (reg.runStages stage data (tokens :: rest) env).1 =
      match (reg.runStage data tokens env).1 with
      | .error e => .error (e.inStage stage)
      | .ok next => (reg.runStages (stage + 1) (some next) rest env).1 := by
  have henv := reg.runStage_env data tokens env
  rw [runStages]
  cases hrun : reg.runStage data tokens env with
  | mk result after =>
    rw [hrun] at henv
    subst henv
    cases result <;> rfl

/-- Stages that hand on the same data one by one do so together. -/
theorem runStages_env_congr (reg : Registry) {env env' : Environment}
    (h : ∀ data tokens, (reg.runStage data tokens env').1 = (reg.runStage data tokens env).1)
    (stage : Nat) (data : Option String) (stages : List (List String)) :
    (reg.runStages stage data stages env').1 = (reg.runStages stage data stages env).1 := by
  induction stages generalizing stage data with
  | nil => rfl
  | cons tokens rest ih =>
    rw [runStages_cons, runStages_cons, h]
    cases (reg.runStage data tokens env).1 with
    | error e => rfl
    | ok next => exact ih (stage + 1) (some next)

theorem runPipeline_env (reg : Registry) (stages : List (List String)) (env : Environment) :
    (reg.runPipeline stages env).2 = env :=
  reg.runStages_env 1 none stages env

/-- A pipeline fails at some stage and says so. -/
theorem inStage_of_runStages {stage : Nat} {data : Option String} {stages : List (List String)}
    {env : Environment} {e : ShellError} (h : (reg.runStages stage data stages env).1 = .error e)
    (later : Nat) : e.inStage later = e := by
  induction stages generalizing stage data with
  | nil => cases h
  | cons tokens rest ih =>
    have hstage := reg.runStage_env data tokens env
    rw [runStages] at h
    split at h
    · rw [Except.error.injEq] at h
      rw [← h, ShellError.inStage_inStage]
    · rename_i next after hrun
      rw [hrun] at hstage
      subst hstage
      exact ih h

/-- Every command is looked up by the name that it has, and none is called `help`. -/
theorem name_of_find? {key : String} {cmd : Command} (h : reg.find? key = some cmd) :
    cmd.name = key := by
  simpa using List.find?_some h

theorem toLower_name (cmd : Command) : cmd.name.toLower = cmd.name := by
  cases cmd <;> decide +kernel

theorem name_ne_help (cmd : Command) : cmd.name ≠ "help" := by
  cases cmd <;> decide

theorem scriptOf?_name (cmd : Command) : scriptOf? cmd.name = none := by
  cases cmd <;> rfl

theorem stageArgs_name (cmd : Command) (args : List String) :
    stageArgs (cmd.name :: args) = args := by
  rw [stageArgs, scriptOf?_name]
  rfl

/-- A built-in command that the list of names allows is found under its name in any letter case. -/
theorem get?_restrict {names : List String} {word : String} {cmd : Command}
    (hword : word.toLower = cmd.name) (hallowed : (builtin.restrict names).allows cmd.name = true) :
    (builtin.restrict names).get? word = some cmd := by
  have hfind : (builtin.restrict names).find? cmd.name = some cmd := by
    change builtin.find? cmd.name = some cmd
    cases cmd <;> decide
  rw [get?, isEnabled, hword, hfind, hallowed]
  simp

/-- A built-in command is found under its name where it is enabled, in any letter case. -/
theorem get?_of_isEnabled {names : List String} {word : String} {cmd : Command}
    (hword : word.toLower = cmd.name) (henabled : (builtin.restrict names).isEnabled word = true) :
    (builtin.restrict names).get? word = some cmd := by
  have hhelp : (word.toLower == "help") = false := by
    rw [hword, beq_eq_false_iff_ne]
    exact name_ne_help cmd
  simp only [isEnabled, hhelp, Bool.false_or, Bool.and_eq_true] at henabled
  exact get?_restrict hword (hword ▸ henabled.2)

theorem toLower_ne_help_of_get? {word : String} {cmd : Command} (h : reg.get? word = some cmd) :
    word.toLower ≠ "help" := by
  intro hhelp
  rw [get?] at h
  split at h
  · exact name_ne_help cmd ((name_of_find? h).trans hhelp)
  · cases h

theorem scriptOf?_of_toLower {word : String} (h : scriptOf? word.toLower = none) :
    scriptOf? word = none := by
  have hlower : word.toLower.toList = word.toList.map Char.toLower := String.toList_map
  rw [scriptOf?, hlower] at h
  rw [scriptOf?]
  split
  · rename_i c cs hword
    rw [hword] at h
    cases h
  · rfl

/-- The name of a command, in any letter case, is no argument. -/
theorem stageArgs_of_toLower {word : String} {cmd : Command} (hword : word.toLower = cmd.name)
    (args : List String) : stageArgs (word :: args) = args := by
  rw [stageArgs, scriptOf?_of_toLower (hword ▸ scriptOf?_name cmd)]
  rfl

/-- The enabled command that a first word names is the one that its stage runs. -/
theorem resolveStage_of_get? {tokens : List String} {cmd : Command}
    (h : reg.get? (tokens.headD "") = some cmd) :
    reg.resolveStage tokens = .ok (cmd, stageArgs tokens) := by
  rw [get?] at h
  split at h
  · rename_i henabled
    have hname := name_of_find? h
    have hscript : scriptOf? (tokens.headD "") = none :=
      scriptOf?_of_toLower (hname ▸ scriptOf?_name cmd)
    have hkey : commandKey (tokens.headD "") = (tokens.headD "").toLower := by
      rw [commandKey, hscript]
      rfl
    have hagain : reg.isEnabled (tokens.headD "").toLower = true := by
      rw [isEnabled, ← hname, toLower_name, hname]
      exact henabled
    rw [resolveStage]
    simp only [hkey, h, hagain, if_true]
  · cases h

/-- A stage on its own runs the enabled command that its first word names, if that has enough
arguments. -/
theorem dispatch_of_checkArity {tokens : List String} {cmd : Command}
    (hcmd : reg.get? (tokens.headD "") = some cmd)
    (harity : checkArity cmd (stageArgs tokens) = .ok ()) (piped : Option String)
    (env : Environment) :
    reg.dispatch tokens piped env = cmd.execute (stageArgs tokens) piped env := by
  rw [dispatch, if_neg (toLower_ne_help_of_get? hcmd), resolveStage_of_get? hcmd]
  simp only [harity]

/-- What a command gives back when it is called without input, its arity included. -/
def callOutput (cmd : Command) (args : List String) (env : Environment) :
    Except ShellError CommandOutput :=
  match checkArity cmd args with
  | .error e => .error e
  | .ok () => (cmd.execute args none env).1

section SingleStage

variable {tokens : List String} {cmd : Command} (hcmd : reg.get? (tokens.headD "") = some cmd)
  (hrole : cmd.role ≠ .standalone) (env : Environment)
include hcmd hrole

theorem dispatch_of_get? :
    reg.dispatch tokens none env = (callOutput cmd (stageArgs tokens) env, env) := by
  rw [dispatch, if_neg (toLower_ne_help_of_get? hcmd), resolveStage_of_get? hcmd, callOutput]
  simp only
  cases checkArity cmd (stageArgs tokens) with
  | error e => rfl
  | ok u =>
    have henv := Command.execute_env hrole (stageArgs tokens) none env
    exact Prod.ext rfl henv

theorem runPipeline_singleton :
    (reg.runPipeline [tokens] env).1 =
      match callOutput cmd (stageArgs tokens) env with
      | .error e => .error (e.inStage 1)
      | .ok out => .ok out.data := by
  have hplace : allowedAt cmd.role true = true := by
    cases hrole' : cmd.role with
    | standalone => exact absurd hrole' hrole
    | source => rfl
    | filter => rfl
  have hprepare : reg.prepareStage none tokens =
      (checkArity cmd (stageArgs tokens)).map fun _ => (cmd, stageArgs tokens, none) := by
    rw [prepareStage_eq, resolveStage_of_get? hcmd]
    simp only [Option.isNone_none, hplace, if_true]
    cases checkArity cmd (stageArgs tokens) <;> rfl
  rw [runPipeline, runStages, runStage, hprepare, callOutput]
  cases checkArity cmd (stageArgs tokens) with
  | error e => rfl
  | ok u =>
    simp only [Outcome.map_ok]
    cases hrun : cmd.execute (stageArgs tokens) none env with
    | mk result after => cases result <;> rfl

end SingleStage

/-- What is left of a line with several stages or a redirect when its data is known. -/
theorem run_of_isPipeline (reg : Registry) {line : ParsedLine} (hline : line.isPipeline = true)
    (hstages : line.isEmpty = false) (piped : Option String) (env : Environment) :
    reg.run line piped env =
      match (reg.runPipeline line.stages env).1, line.redirect with
      | .error e, _ => (.error e, env)
      | .ok data, some r => writeRedirect r data env
      | .ok data, none => (.ok (.text data), env) := by
  have henv := reg.runPipeline_env line.stages env
  rw [run, hstages, hline]
  cases hrun : reg.runPipeline line.stages env with
  | mk result after =>
    rw [hrun] at henv
    subst henv
    cases result with
    | error e => simp
    | ok data => cases line.redirect <;> simp

/-- A redirect writes where its target leads. -/
theorem writeRedirect_eq (r : Redirect) (data : String) (env : Environment) :
    writeRedirect r data env =
      match env.tree.writeFile (Path.parent (env.resolve r.target))
          (Path.lastName (env.resolve r.target)) data (writeModeOf r) env.now with
      | .error e => (.error e, env)
      | .ok tree => (.ok .nothing, { env with tree }) := by
  unfold writeRedirect
  cases hwrite : env.tree.writeFile (Path.parent (env.resolve r.target))
    (Path.lastName (env.resolve r.target)) data (writeModeOf r) env.now <;>
    simp [Path.splitParent_eq, hwrite]

/-- What a line that succeeds has done to the tree: nothing without a redirect, and one write with
it. A line without stages runs nothing. -/
def CommittedTree (line : ParsedLine) (env : Environment) (tree : FileTree) : Prop :=
  match line.redirect with
  | none => tree = env.tree
  | some r =>
    if line.isEmpty then tree = env.tree
    else env.tree.WrittenAt (env.resolve r.target) env.now tree

/-- A pipeline commits all or nothing. When it fails the environment is untouched; when it succeeds
it gives back text or nothing, and at most the target of its redirect is written. -/
theorem run_pipeline_commits (names : List String) (line : ParsedLine) (piped : Option String)
    (env : Environment) (hline : line.isPipeline = true) :
    match (Registry.builtin.restrict names).run line piped env with
    | (.error _, after) => after = env
    | (.ok out, after) =>
      ((∃ text, out = .text text) ∨ out = .nothing) ∧ after = { env with tree := after.tree } ∧
        CommittedTree line env after.tree := by
  cases hstages : line.isEmpty with
  | true =>
    rw [run, if_pos hstages]
    refine ⟨Or.inr rfl, rfl, ?_⟩
    rw [CommittedTree]
    split
    · rfl
    · rw [if_pos hstages]
  | false =>
    rw [run_of_isPipeline _ hline hstages]
    cases hdata : ((Registry.builtin.restrict names).runPipeline line.stages env).1 with
    | error e => rfl
    | ok data =>
      cases hredirect : line.redirect with
      | none => exact ⟨Or.inl ⟨data, rfl⟩, rfl, by simp [CommittedTree, hredirect]⟩
      | some r =>
        simp only [writeRedirect_eq]
        cases hwrite : env.tree.writeFile (Path.parent (env.resolve r.target))
          (Path.lastName (env.resolve r.target)) data (writeModeOf r) env.now with
        | error e => rfl
        | ok tree =>
          refine ⟨Or.inr rfl, rfl, ?_⟩
          simp only [CommittedTree, hredirect, hstages, Bool.false_eq_true, if_false]
          exact FileTree.writtenAt_of_writeFile (Path.isNormal_resolve _ _) hwrite

theorem run_pipeline_commits_new_file :
    ∃ tree, (Registry.builtin.restrict ["Echo"]).run ⟨[["ECHO", "b"]], some ⟨"./out", false⟩⟩ none
        ⟨"/", "/", "quest", .empty "quest" "quest" ⟨0⟩, {}, [], ⟨60⟩⟩ =
          (.ok .nothing, ⟨"/", "/", "quest", tree, {}, [], ⟨60⟩⟩) ∧
      FileTree.WrittenAt (.empty "quest" "quest" ⟨0⟩) "/out" ⟨60⟩ tree := by
  generalize henv : (⟨"/", "/", "quest", .empty "quest" "quest" ⟨0⟩, {}, [], ⟨60⟩⟩ : Environment) =
    env
  generalize hline : (⟨[["ECHO", "b"]], some ⟨"./out", false⟩⟩ : ParsedLine) = line
  have hcmd : (Registry.builtin.restrict ["Echo"]).get? (["ECHO", "b"].headD "") = some .echo :=
    get?_restrict (by decide +kernel) (by decide +kernel)
  have hdata : ((Registry.builtin.restrict ["Echo"]).runPipeline line.stages env).1 =
      .ok "b" := by
    rw [← hline, runPipeline_singleton hcmd (by decide)]
    rfl
  have hpath : env.resolve "./out" = "/out" := by
    rw [← henv]
    decide +kernel
  have hout : (writeRedirect ⟨"./out", false⟩ "b" env).1.toOption = some .nothing := by
    rw [← henv]
    decide +kernel
  have hpipeline : line.isPipeline = true ∧ line.isEmpty = false := by
    rw [← hline]
    decide
  have hcommits := run_pipeline_commits ["Echo"] line none env hpipeline.1
  rw [run_of_isPipeline _ hpipeline.1 hpipeline.2, hdata, ← hline] at hcommits ⊢
  cases hwritten : writeRedirect ⟨"./out", false⟩ "b" env with
  | mk result after =>
    simp only [hwritten] at hout hcommits ⊢
    cases result with
    | error e => cases hout
    | ok out =>
      obtain ⟨-, hafter, htree⟩ := hcommits
      cases hout
      refine ⟨after.tree, ?_, ?_⟩
      · rw [hafter, ← henv]
      · rw [← hpath]
        subst henv
        exact htree

theorem run_singleton (reg : Registry) (tokens : List String) (piped : Option String)
    (env : Environment) : reg.run ⟨[tokens], none⟩ piped env = reg.dispatch tokens piped env :=
  rfl

/-- The data of a pipeline is that of the output which its stages give without a redirect. -/
theorem runPipeline_of_run {first : List String} (rest : List (List String)) {cmd : Command}
    (hcmd : reg.get? (first.headD "") = some cmd) (hrole : cmd.role ≠ .standalone)
    (env : Environment) :
    (reg.runPipeline (first :: rest) env).1 =
      match (reg.run ⟨first :: rest, none⟩ none env).1 with
      | .error e => .error (e.inStage 1)
      | .ok out => .ok out.data := by
  cases rest with
  | nil => rw [run_singleton, dispatch_of_get? hcmd hrole, runPipeline_singleton hcmd hrole]
  | cons second rest =>
    rw [run_of_isPipeline _ (by simp [ParsedLine.isPipeline]) rfl]
    cases hdata : (reg.runPipeline (first :: second :: rest) env).1 with
    | error e =>
      simp only
      rw [inStage_of_runStages hdata]
    | ok data => rfl

/-- A redirect stores exactly the data of what its line gives back without it; and where the line
fails, so does the redirect, and nothing is written. -/
theorem run_redirect_stores_output (names : List String) (env : Environment) (first : List String)
    (rest : List (List String)) (r : Redirect) (cmd : Command)
    (hcmd : (Registry.builtin.restrict names).get? (first.headD "") = some cmd)
    (hrole : cmd.role = .source ∨ cmd.role = .filter) :
    match ((Registry.builtin.restrict names).run ⟨first :: rest, none⟩ none env).1 with
    | .ok out =>
      (Registry.builtin.restrict names).run ⟨first :: rest, some r⟩ none env =
        match env.tree.writeFile (Path.splitParent (env.resolve r.target)).1
            (Path.splitParent (env.resolve r.target)).2 out.data
            (if r.append then .append else .overwrite) env.now with
        | .ok tree => (.ok .nothing, { env with tree })
        | .error e => (.error e, env)
    | .error e =>
      (Registry.builtin.restrict names).run ⟨first :: rest, some r⟩ none env =
        (.error (e.inStage 1), env) := by
  have hrole' : cmd.role ≠ .standalone := by
    rcases hrole with h | h <;> simp [h]
  have hdata := runPipeline_of_run rest hcmd hrole' env
  have hpipeline : (⟨first :: rest, some r⟩ : ParsedLine).isPipeline = true := by
    simp [ParsedLine.isPipeline]
  rw [run_of_isPipeline _ hpipeline rfl]
  cases hout : ((Registry.builtin.restrict names).run ⟨first :: rest, none⟩ none env).1 with
  | error e =>
    rw [hout] at hdata
    simp only [hdata]
  | ok out =>
    rw [hout] at hdata
    simp only [hdata, writeRedirect_eq, writeModeOf, Path.splitParent_eq]
    generalize env.tree.writeFile _ _ _ _ _ = written
    cases written <;> rfl

theorem run_redirect_stores_echoed_word :
    ∃ tree, FileTree.writeFile (.empty "quest" "quest" ⟨0⟩) "/" "out" "b" .append ⟨60⟩ =
        .ok tree ∧
      (Registry.builtin.restrict ["Echo"]).run ⟨[["ECHO", "b"]], some ⟨"./out", true⟩⟩ none
        ⟨"/", "/", "quest", .empty "quest" "quest" ⟨0⟩, {}, [], ⟨60⟩⟩ =
          (.ok .nothing, ⟨"/", "/", "quest", tree, {}, [], ⟨60⟩⟩) := by
  generalize henv : (⟨"/", "/", "quest", .empty "quest" "quest" ⟨0⟩, {}, [], ⟨60⟩⟩ : Environment) =
    env
  have hcmd : (Registry.builtin.restrict ["Echo"]).get? (["ECHO", "b"].headD "") = some .echo :=
    get?_restrict (by decide +kernel) (by decide +kernel)
  have hout : ((Registry.builtin.restrict ["Echo"]).run ⟨[["ECHO", "b"]], none⟩ none env).1 =
      .ok (.text "b") := by
    rw [run_singleton, dispatch_of_get? hcmd (by decide)]
    rfl
  have hplace : Path.splitParent (env.resolve "./out") = ("/", "out") := by
    rw [← henv]
    decide +kernel
  have hmade : (env.tree.writeFile "/" "out" "b" .append env.now).toOption.isSome = true := by
    rw [← henv]
    decide +kernel
  have hstored := run_redirect_stores_output ["Echo"] env ["ECHO", "b"] [] ⟨"./out", true⟩ .echo
    hcmd (.inl rfl)
  simp only [hout, hplace, CommandOutput.data, if_true] at hstored
  cases hwrite : env.tree.writeFile "/" "out" "b" .append env.now with
  | error e => simp [hwrite, Except.toOption] at hmade
  | ok tree =>
    rw [hwrite] at hstored
    subst henv
    exact ⟨tree, hwrite, hstored⟩

end Registry

end ShellTutor

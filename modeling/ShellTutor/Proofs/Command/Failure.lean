import ShellTutor.Proofs.Command.Effect

/-!
# Where failures come from

The causes that a command gives are its own: it blames no stage of a pipeline, and does not say that
a command is missing or out of place. Only a pipeline puts a stage in front of a cause, and it does
so once, so the number that it names is that of a stage of its line, and the cause is the one for
which this stage failed.
-/

namespace ShellTutor

/-- A cause that names no stage of a pipeline. -/
def ShellError.Stageless : ShellError → Prop
  | .pipelineAborted _ _ => False
  | _ => True

/-- A cause that a command may give: it names no stage, and no command that is missing or out of
place. -/
def ShellError.Own : ShellError → Prop
  | .pipelineAborted _ _ | .commandNotFound _ | .unsupportedInPipeline _ => False
  | _ => True

theorem ShellError.Own.stageless {e : ShellError} (h : e.Own) : e.Stageless := by
  cases e with
  | pipelineAborted => cases h
  | _ => trivial

theorem ShellError.Stageless.inStage {e : ShellError} (h : e.Stageless) (stage : Nat) :
    e.inStage stage = .pipelineAborted stage e := by
  cases e with
  | pipelineAborted => cases h
  | _ => rfl

namespace Outcome

variable {α β : Type}

/-- If the operation fails, its cause names no stage. -/
def Stageless (x : Except ShellError α) : Prop :=
  ∀ e, x = .error e → e.Stageless

theorem stageless_ok (a : α) : Stageless (.ok a) := by
  rintro e ⟨⟩

theorem stageless_error {e : ShellError} :
    Stageless (.error e : Except ShellError α) ↔ e.Stageless :=
  ⟨fun h => h e rfl, by rintro h _ ⟨⟩; exact h⟩

/-- If the operation fails, it does so for a cause of its own. -/
def Own (x : Except ShellError α) : Prop :=
  ∀ e, x = .error e → e.Own

theorem Own.stageless {x : Except ShellError α} (h : Own x) : Stageless x :=
  fun e he => (h e he).stageless

theorem own_ok (a : α) : Own (.ok a) := by
  rintro e ⟨⟩

theorem own_error {e : ShellError} :
    Own (.error e : Except ShellError α) ↔ e.Own :=
  ⟨fun h => h e rfl, by rintro h _ ⟨⟩; exact h⟩

theorem Own.bind {x : Except ShellError α} {f : α → Except ShellError β}
    (hx : Own x) (hf : ∀ a, Own (f a)) : Own (x >>= f) := by
  cases x with
  | error e => exact own_error.mpr (hx e rfl)
  | ok a => exact hf a

theorem Own.map {x : Except ShellError α} (h : Own x) (f : α → β) :
    Own (x.map f) := by
  cases x with
  | error e => exact own_error.mpr (h e rfl)
  | ok a => exact own_ok (f a)

theorem own_foldlM {f : β → α → Except ShellError β} (hf : ∀ b a, Own (f b a))
    (xs : List α) (b : β) : Own (xs.foldlM f b) := by
  induction xs generalizing b with
  | nil => exact own_ok b
  | cons x rest ih => exact (hf b x).bind ih

theorem own_mapM {f : α → Except ShellError β} (hf : ∀ a, Own (f a)) (xs : List α) :
    Own (xs.mapM f) := by
  induction xs with
  | nil => exact own_ok []
  | cons x rest ih =>
    rw [List.mapM_cons]
    exact (hf x).bind fun y => ih.bind fun ys => own_ok (y :: ys)

theorem own_eachOperand {act : FileTree → α → Except ShellError (β × FileTree)}
    (hact : ∀ t operand, Own (act t operand)) (t : FileTree) (operands : List α) :
    Own (eachOperand act t operands).1 := by
  induction operands generalizing t with
  | nil => exact own_ok []
  | cons operand rest ih =>
    have hfirst := hact t operand
    rw [eachOperand]
    cases hmade : act t operand with
    | error e => exact own_error.mpr (hfirst e hmade)
    | ok made =>
      obtain ⟨b, next⟩ := made
      have hrest := ih next
      simp only
      split
      · rename_i e after heq
        exact own_error.mpr (hrest e (congrArg Prod.fst heq))
      · exact own_ok _

end Outcome

open Outcome (Stageless stageless_ok stageless_error Own own_ok own_error own_foldlM own_mapM
  own_eachOperand)

namespace FileTree

variable (t : FileTree)

theorem own_checkPlace (key name : String) : Own (t.checkPlace key name) := by
  unfold checkPlace
  split
  · exact own_error.mpr trivial
  · split
    · exact own_error.mpr trivial
    · split
      · exact own_ok ()
      · exact own_error.mpr trivial

theorem own_createDirectory (dir name : String) (now : Timestamp) :
    Own (t.createDirectory dir name now) := by
  refine (t.own_checkPlace (Path.normalize dir) name).bind fun _ => ?_
  split
  · exact own_error.mpr trivial
  · exact own_ok _

theorem own_createFile (dir name content : String) (now : Timestamp) :
    Own (t.createFile dir name content now) := by
  refine (t.own_checkPlace (Path.normalize dir) name).bind fun _ => ?_
  split <;> exact own_ok _

theorem own_writeFile (dir name content : String) (mode : WriteMode) (now : Timestamp) :
    Own (t.writeFile dir name content mode now) := by
  refine (t.own_checkPlace (Path.normalize dir) name).bind fun _ => ?_
  split
  · exact own_ok _
  · split
    · exact own_error.mpr trivial
    · exact own_ok _

theorem own_changePermissions (dir name : String) (spec : ModeSpec) :
    Own (t.changePermissions dir name spec) := by
  unfold changePermissions
  simp only
  split
  · exact own_error.mpr trivial
  · exact own_ok _

theorem own_list (path : String) : Own (t.list path) := by
  unfold list
  simp only
  split
  · exact own_error.mpr trivial
  · split
    · exact own_error.mpr trivial
    · exact own_ok _

theorem own_readFrom (cwd operand : String) : Own (t.readFrom cwd operand) := by
  unfold readFrom read
  simp only
  split
  · exact own_error.mpr trivial
  · split
    · exact own_error.mpr trivial
    · split
      · exact own_ok _
      · exact own_error.mpr trivial

end FileTree

theorem Environment.own_readOperand (env : Environment) (operand : String) :
    Own (env.readOperand operand) :=
  env.tree.own_readFrom env.cwd operand

theorem ModeSpec.own_ofString (s : String) : Own (ofString s) := by
  unfold ofString
  split
  · refine Outcome.Own.map ?_ _
    unfold Permissions.ofOctal
    split
    · exact own_ok _
    · exact own_error.mpr trivial
  · refine Outcome.Own.map (own_mapM (fun piece => ?_) _) _
    unfold ModeClause.ofString
    split
    · exact own_ok _
    · exact own_error.mpr trivial

namespace Files

variable (args : List String) (env : Environment)

theorem own_changeDirectory : Own (changeDirectory args env).1 := by
  unfold changeDirectory
  split
  · exact own_ok _
  · simp only
    split
    · split
      · exact own_ok _
      · exact own_error.mpr trivial
    · exact own_error.mpr trivial

theorem ListOptions.own_word (o : ListOptions) (arg : String) : Own (o.word arg) := by
  unfold word
  split
  · split
    · exact own_ok _
    · refine own_foldlM (fun o c => ?_) _ o
      unfold flag
      split
      · exact own_ok _
      · exact own_ok _
      · exact own_ok _
      · exact own_error.mpr trivial
  · exact own_ok _

theorem own_list : Own (list args env) := by
  refine (own_foldlM ListOptions.own_word args _).bind fun o => ?_
  simp only
  split
  · exact own_error.mpr trivial
  · split
    · exact own_ok _
    · refine (env.tree.own_list _).bind fun entries => ?_
      split <;> exact own_ok _

theorem own_makeDirectories : Own (makeDirectories args env).1 :=
  (own_eachOperand (fun t operand => (makeDirectory_eq env t operand).symm ▸
    (t.own_createDirectory _ _ _).map _) env.tree args).map _

theorem own_touchFiles : Own (touchFiles args env).1 :=
  (own_eachOperand (fun t operand => (touchFile_eq env t operand).symm ▸
    (t.own_createFile _ _ _ _).map _) env.tree args).map _

theorem own_concatenate (usage : String) : Own (concatenate usage args env) := by
  unfold concatenate
  simp only
  split
  · exact own_error.mpr trivial
  · refine (own_mapM env.own_readOperand _).bind fun texts => ?_
    split <;> exact own_ok _

theorem own_changeModes : Own (changeModes args env).1 := by
  unfold changeModes
  split
  · rename_i e hspec
    exact own_error.mpr (ModeSpec.own_ofString _ e hspec)
  · rename_i spec hspec
    exact (own_eachOperand (fun t operand => (changeMode_eq env spec t operand).symm ▸
      (t.own_changePermissions _ _ _).map _) env.tree args.tail).map _

theorem own_page : Own (page args env) :=
  (env.own_readOperand _).bind fun _ => own_ok _

theorem own_edit : Own (edit args env) := by
  unfold edit
  simp only
  split
  · exact (env.own_readOperand _).bind fun _ => own_ok _
  · split
    · exact own_ok _
    · exact own_error.mpr trivial

end Files

namespace Script

variable (operand : String) (env : Environment)

theorem own_runOperand : Own (runOperand operand env).1 := by
  rw [runOperand_eq]
  split
  · rename_i e hread
    exact own_error.mpr (env.own_readOperand operand e hread)
  · exact own_ok _

theorem own_execute : Own (execute operand env).1 := by
  unfold execute
  simp only
  split
  · exact own_error.mpr trivial
  · split
    · exact own_error.mpr trivial
    · split
      · exact own_error.mpr trivial
      · exact own_runOperand operand env

end Script

namespace Filter

variable (usage : String) (args : List String) (piped : Option String) (env : Environment)

theorem own_input (file : Option String) : Own (input usage env piped file) := by
  unfold input
  split
  · exact env.own_readOperand _
  · exact own_ok _
  · exact own_error.mpr trivial

theorem SelectOptions.own_withCount (o : SelectOptions) (s : String) :
    Own (o.withCount s) := by
  unfold withCount
  split
  · exact own_ok _
  · exact own_error.mpr trivial

theorem SelectOptions.own_word (o : SelectOptions) (arg : String) :
    Own (o.word arg) := by
  unfold word
  split
  · exact o.own_withCount arg
  · split
    · exact own_ok _
    · split
      · exact o.own_withCount _
      · split
        · exact own_ok _
        · exact o.own_withCount _
      · exact own_ok _

theorem SelectOptions.own_parse : Own (parse args) := by
  refine (own_foldlM own_word args _).bind fun o => ?_
  split
  · exact o.own_withCount _
  · exact own_ok _

theorem own_select (choose : Nat → List String → List String) :
    Own (select choose usage args piped env) :=
  (SelectOptions.own_parse args).bind fun o =>
    (own_input usage piped env o.file).bind fun _ => own_ok _

theorem own_count : Own (count usage args piped env) :=
  (own_input usage piped env _).bind fun _ => own_ok _

theorem own_grep : Own (grep usage args piped env) := by
  unfold grep
  simp only
  split
  · exact own_error.mpr trivial
  · refine (own_input usage piped env _).bind fun text => ?_
    split
    · exact own_ok _
    · split
      · split <;> exact own_ok _
      · exact own_ok _

theorem SortOptions.own_word (o : SortOptions) (arg : String) : Own (o.word arg) := by
  unfold word
  split
  · split
    · exact own_ok _
    · refine own_foldlM (fun o c => ?_) _ o
      unfold flag
      split
      · exact own_ok _
      · exact own_ok _
      · exact own_error.mpr trivial
  · exact own_ok _

theorem own_sort : Own (sort usage args piped env) :=
  (own_foldlM SortOptions.own_word args _).bind fun o =>
    (own_input usage piped env o.file).bind fun _ => own_ok _

theorem own_uniq : Own (uniq usage args piped env) :=
  (own_input usage piped env _).bind fun _ => own_ok _

theorem own_cut : Own (cut usage args piped env) := by
  unfold cut
  simp only
  split
  · exact own_error.mpr trivial
  · split
    · exact own_error.mpr trivial
    · exact (own_input usage piped env _).bind fun _ => own_ok _

end Filter

theorem Demo.own_write (file content : String) (env : Environment) :
    Own (write file content env).1 := by
  unfold write
  split
  · rename_i e hwrite
    exact own_error.mpr (env.tree.own_writeFile _ _ _ _ _ e hwrite)
  · rename_i tree hwrite
    split
    · rename_i e hmode
      exact own_error.mpr (tree.own_changePermissions _ _ _ e hmode)
    · exact own_ok _

theorem Demo.own_run (args : List String) (env : Environment) :
    Own (run args env).1 := by
  rw [run.eq_def]
  split
  · exact own_ok _
  · split
    · exact own_error.mpr trivial
    · exact (own_write _ _ env).map _

namespace Admin

theorem own_backup (env : Environment) : Own (backup env).1 := by
  unfold backup
  split
  · rename_i e hmade
    refine own_error.mpr ?_
    rw [ensureBackup] at hmade
    split at hmade
    · cases hmade
    · exact env.tree.own_createDirectory _ _ _ e hmade
  · rename_i tree hmade
    split
    · rename_i e hlist
      exact own_error.mpr (tree.own_list _ e hlist)
    · exact (own_eachOperand (fun t file => (t.own_writeFile _ _ _ _ _).map _)
        tree _).map _

theorem own_run (args : List String) (env : Environment) : Own (run args env).1 := by
  rw [run]
  split
  · refine Outcome.Own.map ?_ _
    rw [call.eq_def]
    split
    · exact own_ok _
    · exact own_ok _
    · exact (env.tree.own_list _).bind fun _ => own_ok _
    · exact own_backup env
    · exact (env.tree.own_list _).bind fun _ => own_ok _
    · exact own_error.mpr trivial
  · exact own_error.mpr trivial

end Admin

/-- A command fails for causes of its own. -/
theorem Command.own_execute (cmd : Command) (args : List String) (piped : Option String)
    (env : Environment) : Own (cmd.execute args piped env).1 := by
  cases cmd with
  | pwd | echo | history | clear => exact own_ok _
  | cd => exact Files.own_changeDirectory args env
  | ls => exact Files.own_list args env
  | mkdir => exact Files.own_makeDirectories args env
  | touch => exact Files.own_touchFiles args env
  | cat => exact Files.own_concatenate args env cat.usage
  | chmod => exact Files.own_changeModes args env
  | less => exact Files.own_page args env
  | edit | nano => exact Files.own_edit args env
  | bash => exact Script.own_runOperand (args.headD "") env
  | runScript => exact Script.own_execute (args.headD "") env
  | head => exact Filter.own_select head.usage args piped env List.take
  | tail => exact Filter.own_select tail.usage args piped env Filter.takeLast
  | wc => exact Filter.own_count wc.usage args piped env
  | grep => exact Filter.own_grep grep.usage args piped env
  | sort => exact Filter.own_sort sort.usage args piped env
  | uniq => exact Filter.own_uniq uniq.usage args piped env
  | cut => exact Filter.own_cut cut.usage args piped env
  | demo => exact Demo.own_run args env
  | admin => exact Admin.own_run args env

namespace Registry

variable (reg : Registry)

theorem stageless_resolveStage (tokens : List String) : Stageless (reg.resolveStage tokens) := by
  unfold resolveStage
  simp only
  split
  · split
    · exact stageless_ok _
    · exact stageless_error.mpr trivial
  · exact stageless_error.mpr trivial

theorem own_checkArity (cmd : Command) (args : List String) : Own (checkArity cmd args) := by
  unfold checkArity
  split
  · exact own_error.mpr trivial
  · exact own_ok _

theorem own_stageInput (data : Option String) : Own (stageInput data) := by
  unfold stageInput
  split
  · exact own_ok _
  · refine Outcome.Own.map ?_ _
    unfold pipedInput
    simp only
    split
    · exact own_error.mpr trivial
    · exact own_ok _

theorem stageless_prepareStage (data : Option String) (tokens : List String) :
    Stageless (reg.prepareStage data tokens) := by
  rw [prepareStage_eq]
  split
  · rename_i e hresolve
    exact stageless_error.mpr (reg.stageless_resolveStage tokens e hresolve)
  · rename_i cmd args hresolve
    split
    · split
      · rename_i e harity
        exact stageless_error.mpr (own_checkArity cmd args e harity).stageless
      · exact ((own_stageInput data).map _).stageless
    · exact stageless_error.mpr trivial

theorem stageless_runStage (data : Option String) (tokens : List String) (env : Environment) :
    Stageless (reg.runStage data tokens env).1 := by
  unfold runStage
  split
  · rename_i e hprepare
    exact stageless_error.mpr (reg.stageless_prepareStage data tokens e hprepare)
  · rename_i cmd args piped hprepare
    exact ((cmd.own_execute args piped env).map _).stageless

theorem own_help (args : List String) : Own (reg.help args) := by
  rw [help.eq_def]
  split
  · exact own_ok _
  · split
    · exact own_ok _
    · split
      · exact own_ok _
      · exact own_error.mpr trivial

/-- A stage that is run on its own is not called a stage. -/
theorem stageless_dispatch (tokens : List String) (piped : Option String) (env : Environment) :
    Stageless (reg.dispatch tokens piped env).1 := by
  unfold dispatch
  split
  · exact (reg.own_help tokens.tail).stageless
  · split
    · rename_i e hresolve
      exact stageless_error.mpr (reg.stageless_resolveStage tokens e hresolve)
    · rename_i cmd args hresolve
      split
      · rename_i e harity
        exact stageless_error.mpr (own_checkArity cmd args e harity).stageless
      · exact (cmd.own_execute args piped env).stageless

/-- A pipeline that fails names the stage that failed, and its cause. -/
theorem exists_stage_of_runStages {stage : Nat} {data : Option String}
    {stages : List (List String)} {env : Environment} {e : ShellError}
    (h : (reg.runStages stage data stages env).1 = .error e) :
    ∃ n tokens before cause, stages[n]? = some tokens ∧
      (reg.runStage before tokens env).1 = .error cause ∧
      e = .pipelineAborted (stage + n) cause := by
  induction stages generalizing stage data with
  | nil => cases h
  | cons tokens rest ih =>
    have henv := reg.runStage_env data tokens env
    rw [runStages] at h
    split at h
    · rename_i cause after hrun
      have hcause : (reg.runStage data tokens env).1 = .error cause := congrArg Prod.fst hrun
      have hplain := reg.stageless_runStage data tokens env cause hcause
      rw [Except.error.injEq, hplain.inStage] at h
      exact ⟨0, tokens, data, cause, rfl, hcause, h.symm⟩
    · rename_i next after hrun
      rw [hrun] at henv
      subst henv
      obtain ⟨n, tokens', before, cause, htokens, hcause, he⟩ := ih h
      refine ⟨n + 1, tokens', before, cause, htokens, hcause, ?_⟩
      rw [he, Nat.add_assoc, Nat.add_comm 1 n]

/-- Where a line blames a stage, it has that stage, and the stage failed for the given cause. -/
theorem exists_stage_of_run {line : ParsedLine} {piped : Option String} {env : Environment}
    {stage : Nat} {cause : ShellError}
    (h : (reg.run line piped env).1 = .error (.pipelineAborted stage cause)) :
    1 ≤ stage ∧ ∃ tokens before, line.stages[stage - 1]? = some tokens ∧
      (reg.runStage before tokens env).1 = .error cause := by
  cases hempty : line.isEmpty with
  | true =>
    rw [run, if_pos hempty] at h
    cases h
  | false =>
    cases hpipeline : line.isPipeline with
    | false =>
      have hrun : reg.run line piped env = reg.dispatch (line.stages.headD []) piped env := by
        simp [run, hempty, hpipeline]
      rw [hrun] at h
      exact absurd (reg.stageless_dispatch _ piped env _ h) id
    | true =>
      rw [run_of_isPipeline reg hpipeline hempty] at h
      split at h
      · rename_i e redirect hdata
        obtain ⟨n, tokens, before, cause', htokens, hcause, he⟩ :=
          reg.exists_stage_of_runStages hdata
        rw [Except.error.injEq, he, ShellError.pipelineAborted.injEq] at h
        obtain ⟨rfl, rfl⟩ := h
        refine ⟨Nat.le_add_right 1 n, tokens, before, ?_, hcause⟩
        rw [Nat.add_sub_cancel_left]
        exact htokens
      · rename_i data r hdata
        rw [writeRedirect_eq] at h
        split at h
        · rename_i e hwrite
          rw [Except.error.injEq] at h
          exact absurd (env.tree.own_writeFile _ _ _ _ _ _ (h ▸ hwrite)) id
        · cases h
      · cases h

end Registry

end ShellTutor

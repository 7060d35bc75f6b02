import Mathlib
import ShellTutor.Proofs.Command.Frame
import ShellTutor.Proofs.Command.Splice

/-!
# Commands that are not found

Whether a command is enabled and whether it is found is decided in two places, with the letter case
folded in each. They agree on every word but one: `help` is always enabled, and it is answered only
where a command stands on its own. A pipeline looks for it among the commands, where it is not.
-/

namespace ShellTutor

theorem Text.toLower_toLower (s : String) : s.toLower.toLower = s.toLower := by
  have hmap (s : String) : s.toLower.toList = s.toList.map Char.toLower := String.toList_map
  rw [← String.toList_inj, hmap, hmap, List.map_map]
  exact List.map_congr_left fun c _ => c.toLower_toLower_eq_toLower

namespace Registry

variable {reg : Registry} {tokens args : List String} {cmd : Command} {data : Option String}
  {env : Environment} {word : String} {e : ShellError}

theorem toLower_commandKey (word : String) : (commandKey word).toLower = commandKey word := by
  rw [commandKey]
  split
  · decide +kernel
  · exact Text.toLower_toLower word

/-- The command of a stage is not enabled, or is `help`. -/
def Missing (reg : Registry) (tokens : List String) : Prop :=
  reg.isEnabled (commandKey (tokens.headD "")) = false ∨ commandKey (tokens.headD "") = "help"

/-- A stage is not found just if its command is missing. -/
theorem resolveStage_cases (reg : Registry) (tokens : List String) :
    (reg.Missing tokens ∧ reg.resolveStage tokens = .error (.commandNotFound (tokens.headD ""))) ∨
      ¬ reg.Missing tokens ∧ ∃ cmd, cmd.name = commandKey (tokens.headD "") ∧
        reg.resolveStage tokens = .ok (cmd, stageArgs tokens) := by
  rw [resolveStage, Missing]
  generalize hkey : commandKey (tokens.headD "") = key
  have hlower : key.toLower = key := hkey ▸ toLower_commandKey _
  cases hfind : reg.find? key with
  | none =>
    have hmissing : reg.isEnabled key = false ∨ key = "help" := by
      by_cases hhelp : key = "help"
      · exact Or.inr hhelp
      · exact Or.inl (by simp [isEnabled, hlower, hfind, hhelp])
    exact Or.inl ⟨hmissing, rfl⟩
  | some cmd =>
    have hname : cmd.name = key := name_of_find? hfind
    have hhelp : key ≠ "help" := hname ▸ name_ne_help cmd
    cases henabled : reg.isEnabled key with
    | false => exact Or.inl ⟨Or.inl rfl, rfl⟩
    | true => exact Or.inr ⟨by simp [hhelp], cmd, hname, rfl⟩

theorem isEnabled_help (reg : Registry) : reg.isEnabled "help" = true := by
  have hlower : "help".toLower = "help" := by decide +kernel
  rw [isEnabled, hlower]
  rfl

/-- On its own, a command is not found just if it is not enabled: `help` is answered before. -/
theorem dispatch_not_found_iff {piped : Option String} :
    (reg.dispatch tokens piped env).1 = .error (.commandNotFound word) ↔
      word = tokens.headD "" ∧ reg.isEnabled (commandKey (tokens.headD "")) = false := by
  by_cases hhelp : commandKey (tokens.headD "") = "help"
  · rw [dispatch, if_pos (commandKey_eq_help_iff.mp hhelp), hhelp, isEnabled_help]
    exact iff_of_false (fun h => reg.own_help _ _ h) (by simp)
  · rw [dispatch, if_neg (mt commandKey_eq_help_iff.mpr hhelp)]
    rcases reg.resolveStage_cases tokens with ⟨hmissing, hresolve⟩ | ⟨hfound, cmd, -, hresolve⟩
    · simp only [hresolve, Except.error.injEq, ShellError.commandNotFound.injEq,
        eq_comm (b := word)]
      exact (and_iff_left (hmissing.resolve_right hhelp)).symm
    · simp only [hresolve]
      refine iff_of_false (fun h => ?_) fun h => hfound (Or.inl h.2)
      split at h
      · rename_i e harity
        obtain rfl := Except.error.inj h
        exact own_checkArity cmd _ _ harity
      · exact cmd.own_execute _ piped env _ h

theorem runStage_of_missing (h : reg.Missing tokens) :
    (reg.runStage data tokens env).1 = .error (.commandNotFound (tokens.headD "")) := by
  rcases reg.resolveStage_cases tokens with ⟨-, hresolve⟩ | ⟨hfound, -⟩
  · rw [runStage, prepareStage_eq, hresolve]
  · exact absurd h hfound

/-- A command that is found may still be out of place. -/
theorem runStage_of_misplaced (h : ¬ reg.Missing tokens) :
    ∃ cmd : Command, cmd.name = commandKey (tokens.headD "") ∧
      ∀ data env, allowedAt cmd.role data.isNone = false →
        (reg.runStage data tokens env).1 = .error (.unsupportedInPipeline cmd.name) := by
  rcases reg.resolveStage_cases tokens with ⟨hmissing, -⟩ | ⟨-, cmd, hname, hresolve⟩
  · exact absurd hmissing h
  · refine ⟨cmd, hname, fun data env hplace => ?_⟩
    rw [runStage, prepareStage_eq, hresolve]
    simp only [hplace, Bool.false_eq_true, if_false]

/-- A stage whose command is found does not fail as if it were not. -/
theorem missing_of_runStage
    (h : (reg.runStage data tokens env).1 = .error (.commandNotFound word)) :
    word = tokens.headD "" ∧ reg.Missing tokens := by
  rcases reg.resolveStage_cases tokens with ⟨hmissing, -⟩ | ⟨-, cmd, -, hresolve⟩
  · rw [runStage_of_missing hmissing, Except.error.injEq, ShellError.commandNotFound.injEq] at h
    exact ⟨h.symm, hmissing⟩
  · exfalso
    rw [runStage] at h
    split at h
    · rename_i e hprepare
      obtain rfl := Except.error.inj h
      rw [prepareStage_eq, hresolve] at hprepare
      simp only at hprepare
      split at hprepare
      · split at hprepare
        · rename_i e harity
          obtain rfl := Except.error.inj hprepare
          exact own_checkArity cmd _ _ harity
        · exact (own_stageInput data).map _ _ hprepare
      · cases hprepare
    · rename_i found args piped hprepare
      exact (found.own_execute args piped env).map _ _ h

/-- A line fails for a missing command by itself just if it is one command on its own that is not
enabled. -/
theorem run_not_found_iff {line : ParsedLine} {piped : Option String} :
    (reg.run line piped env).1 = .error (.commandNotFound word) ↔
      ∃ tokens, line = { stages := [tokens] } ∧ word = tokens.headD "" ∧
        reg.isEnabled (commandKey word) = false := by
  constructor
  · intro h
    cases hempty : line.isEmpty with
    | true =>
      rw [run, if_pos hempty] at h
      cases h
    | false =>
      cases hpipeline : line.isPipeline with
      | false =>
        obtain ⟨tokens, rfl⟩ := exists_eq_of_not_isPipeline hempty hpipeline
        obtain ⟨rfl, hdisabled⟩ := dispatch_not_found_iff.mp h
        exact ⟨tokens, rfl, rfl, hdisabled⟩
      | true =>
        rw [run_of_isPipeline reg hpipeline hempty] at h
        split at h
        · rename_i e redirect hdata
          obtain ⟨n, tokens, before, cause, -, -, rfl⟩ := reg.exists_stage_of_runStages hdata
          cases h
        · rw [writeRedirect_eq] at h
          split at h
          · rename_i e hwrite
            obtain rfl := Except.error.inj h
            exact absurd (env.tree.own_writeFile _ _ _ _ _ _ hwrite) id
          · cases h
        · cases h
  · rintro ⟨tokens, rfl, rfl, hdisabled⟩
    exact dispatch_not_found_iff.mpr ⟨rfl, hdisabled⟩

/-- A stage is reached if the stages in front of it succeed, and if it fails, then the line does. -/
theorem run_of_reached {line : ParsedLine} {front back : List (List String)} {next : String}
    {cause : ShellError} (hpipeline : line.isPipeline = true)
    (hstages : line.stages = front ++ tokens :: back)
    (hfront : (reg.runPipeline front env).1 = .ok next)
    (hstage : ∀ data, data.isNone = front.isEmpty →
      (reg.runStage data tokens env).1 = .error cause) (piped : Option String) :
    (reg.run line piped env).1 = .error (cause.inStage (front.length + 1)) := by
  have hfails : (reg.runPipeline line.stages env).1 =
      .error (cause.inStage (front.length + 1)) := by
    rw [hstages]
    cases front with
    | nil =>
      have hfirst : (reg.runStage none tokens env).1 = .error cause := hstage none rfl
      rw [runPipeline, List.nil_append, runStages_cons, hfirst]
      rfl
    | cons first rest =>
      have hlater : (reg.runStage (some next) tokens env).1 = .error cause := hstage (some next) rfl
      have hnumber : 1 + (first :: rest).length = (first :: rest).length + 1 := Nat.add_comm ..
      rw [runPipeline] at hfront ⊢
      rw [runStages_append reg (Or.inl (List.cons_ne_nil first rest)), hfront]
      simp only
      rw [runStages_cons, hlater, hnumber]
  have hempty : line.isEmpty = false := by
    rw [ParsedLine.isEmpty, hstages]
    cases front <;> rfl
  rw [run_of_isPipeline reg hpipeline hempty, hfails]

/-- A missing command is reported just where a command on its own is not enabled; at a stage of a
pipeline where it is not enabled, or is `help`. Any other command that may not stand at its stage is
reported as such. -/
theorem run_reports_missing (names : List String) (line : ParsedLine) (piped : Option String)
    (env : Environment) :
    (∀ word, ((builtin.restrict names).run line piped env).1 = .error (.commandNotFound word) ↔
      ∃ tokens, line = { stages := [tokens] } ∧ word = tokens.headD "" ∧
        (builtin.restrict names).isEnabled (commandKey word) = false) ∧
    (∀ k word, ((builtin.restrict names).run line piped env).1 =
        .error (.pipelineAborted k (.commandNotFound word)) →
      1 ≤ k ∧ ∃ tokens, line.stages[k - 1]? = some tokens ∧ word = tokens.headD "" ∧
        ((builtin.restrict names).isEnabled (commandKey word) = false ∨
          commandKey word = "help")) ∧
    ∀ front tokens back next, line.isPipeline = true → line.stages = front ++ tokens :: back →
      ((builtin.restrict names).runPipeline front env).1 = .ok next →
      ((builtin.restrict names).isEnabled (commandKey (tokens.headD "")) = false ∨
          commandKey (tokens.headD "") = "help" →
        ((builtin.restrict names).run line piped env).1 =
          .error (.pipelineAborted (front.length + 1) (.commandNotFound (tokens.headD "")))) ∧
      ((builtin.restrict names).isEnabled (commandKey (tokens.headD "")) = true →
        commandKey (tokens.headD "") ≠ "help" →
        ∃ cmd : Command, cmd.name = commandKey (tokens.headD "") ∧
          (allowedAt cmd.role front.isEmpty = false →
            ((builtin.restrict names).run line piped env).1 =
              .error (.pipelineAborted (front.length + 1) (.unsupportedInPipeline cmd.name)))) := by
  generalize builtin.restrict names = reg
  refine ⟨fun word => run_not_found_iff, fun k word h => ?_, ?_⟩
  · obtain ⟨hk, tokens, before, htokens, hcause⟩ := reg.exists_stage_of_run h
    obtain ⟨rfl, hmissing⟩ := missing_of_runStage hcause
    exact ⟨hk, tokens, htokens, rfl, hmissing⟩
  · intro front tokens back next hpipeline hstages hfront
    refine ⟨fun hmissing => ?_, fun henabled hhelp => ?_⟩
    · exact run_of_reached hpipeline hstages hfront (fun _ _ => runStage_of_missing hmissing) piped
    · have hfound : ¬ reg.Missing tokens := by
        rw [Missing, henabled, not_or]
        exact ⟨Bool.noConfusion, hhelp⟩
      obtain ⟨cmd, hname, hstage⟩ := runStage_of_misplaced hfound
      refine ⟨cmd, hname, fun hplace => ?_⟩
      exact run_of_reached hpipeline hstages hfront
        (fun data hdata => hstage data env (hdata ▸ hplace)) piped

/-- Of the names that the list allows, `edit` is one that may not stand in a pipeline. -/
theorem run_reports_missing_of_edit :
    ∃ env : Environment,
      ((builtin.restrict ["echo", "sort", "edit"]).run
        { stages := [["echo", "b"], ["sort"], ["edit", "f"], ["wc"]] } none env).1 =
          .error (.pipelineAborted 3 (.unsupportedInPipeline "edit")) ∧
      ((builtin.restrict ["echo", "sort", "edit"]).run
        { stages := [["echo", "b"], ["sort"], ["wc"], ["edit", "f"]] } none env).1 =
          .error (.pipelineAborted 3 (.commandNotFound "wc")) ∧
      ((builtin.restrict ["echo", "sort", "edit"]).run { stages := [["wc"]] } none env).1 =
        .error (.commandNotFound "wc") := by
  obtain ⟨env, henv⟩ : ∃ env : Environment,
      env = ⟨"/", "/", "quest", .empty "quest" "quest" ⟨0⟩, {}, [], ⟨60⟩⟩ := ⟨_, rfl⟩
  have hfront : ((builtin.restrict ["echo", "sort", "edit"]).runPipeline
      [["echo", "b"], ["sort"]] env).1 = .ok "b" := by
    subst henv
    decide +kernel
  have hedit : commandKey "edit" = "edit" ∧
      (builtin.restrict ["echo", "sort", "edit"]).isEnabled (commandKey "edit") = true := by
    decide +kernel
  have hwc : (builtin.restrict ["echo", "sort", "edit"]).isEnabled (commandKey "wc") = false := by
    decide +kernel
  have hreports := fun line => run_reports_missing ["echo", "sort", "edit"] line none env
  generalize builtin.restrict ["echo", "sort", "edit"] = reg at hfront hedit hwc hreports ⊢
  refine ⟨env, ?_, ?_, ?_⟩
  · obtain ⟨-, -, hreached⟩ :=
      hreports { stages := [["echo", "b"], ["sort"], ["edit", "f"], ["wc"]] }
    obtain ⟨-, hplaced⟩ :=
      hreached [["echo", "b"], ["sort"]] ["edit", "f"] [["wc"]] "b" rfl rfl hfront
    obtain ⟨cmd, hname, hrun⟩ := hplaced hedit.2 (by rw [List.headD_cons, hedit.1]; decide)
    rw [List.headD_cons, hedit.1] at hname
    obtain rfl : cmd = .edit := by
      cases cmd <;> first | rfl | exact absurd hname (by decide)
    exact hrun rfl
  · obtain ⟨-, -, hreached⟩ :=
      hreports { stages := [["echo", "b"], ["sort"], ["wc"], ["edit", "f"]] }
    exact (hreached [["echo", "b"], ["sort"]] ["wc"] [["edit", "f"]] "b" rfl rfl hfront).1
      (Or.inl hwc)
  · exact ((hreports { stages := [["wc"]] }).1 "wc").mpr ⟨["wc"], rfl, rfl, hwc⟩

/-- A command that is always enabled is said not to be there. -/
theorem run_misses_help :
    ParsedLine.parse "help | wc -l" = .ok { stages := [["help"], ["wc", "-l"]] } ∧
      (builtin.restrict []).isEnabled (commandKey "help") = true ∧
      ∃ env : Environment,
        ((builtin.restrict []).run { stages := [["help"], ["wc", "-l"]] } none env).1 =
          .error (.pipelineAborted 1 (.commandNotFound "help")) := by
  refine ⟨by decide +kernel, by decide +kernel,
    ⟨"/", "/", "quest", .empty "quest" "quest" ⟨0⟩, {}, [], ⟨60⟩⟩, ?_⟩
  decide +kernel

end Registry

end ShellTutor

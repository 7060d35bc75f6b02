import ShellTutor.Proofs.Command.Pipeline
import ShellTutor.Proofs.Command.Sorting

/-!
# Lines that crash

Only one command crashes: `sort`, when it is given more than 20 lines to sort by number and a `nan`
among them. A line crashes at the first of its stages that does, with the data that the stages
before it hand on. So lines without such a stage always have a result.
-/

namespace ShellTutor

/-- A text on which sorting by number may crash. -/
structure Filter.MayCrash (text : String) : Prop where
  many : 20 < (Text.lines text).length
  nan : ∃ line ∈ Text.lines text, numericKey line = .nan

namespace Filter

variable {usage : String} {args : List String} {piped : Option String} {env : Environment}

theorem mayCrash_of_sortCrashes (h : sortCrashes usage args piped env = true) :
    ∃ o text, args.foldlM SortOptions.word {} = .ok o ∧ input usage env piped o.file = .ok text ∧
      MayCrash text := by
  rw [sortCrashes] at h
  cases hwords : args.foldlM SortOptions.word {} with
  | error e =>
    rw [hwords] at h
    cases h
  | ok o =>
    cases hinput : input usage env piped o.file with
    | error e => simp [hwords, hinput, Except.toOption] at h
    | ok text =>
      simp only [hwords, hinput, Outcome.ok_bind] at h
      have hnone : sortNumbers? (Text.lines text) = none := by
        simpa [Except.toOption] using (Bool.and_eq_true_iff.mp h).2
      obtain ⟨hmany, hnan⟩ := nan_of_sortNumbers?_eq_none hnone
      exact ⟨o, text, rfl, hinput, hmany, hnan⟩

end Filter

theorem Command.sort_of_crashes {cmd : Command} {args : List String} {piped : Option String}
    {env : Environment} (h : cmd.crashes args piped env = true) :
    cmd = .sort ∧ ∃ text, Filter.MayCrash text := by
  cases cmd with
  | sort =>
    obtain ⟨_, text, -, -, hcrash⟩ := Filter.mayCrash_of_sortCrashes h
    exact ⟨rfl, text, hcrash⟩
  | _ => cases h

namespace Registry

variable {reg : Registry}

theorem stageCrashes_of_prepareStage {data : Option String} {tokens args : List String}
    {cmd : Command} {piped : Option String}
    (h : reg.prepareStage data tokens = .ok (cmd, args, piped)) (env : Environment) :
    reg.stageCrashes data tokens env = cmd.crashes args piped env := by
  rw [stageCrashes, h]

theorem stagesCrash_cons (reg : Registry) (data : Option String) (tokens : List String)
    (rest : List (List String)) (env : Environment) :
    reg.stagesCrash data (tokens :: rest) env =
      (reg.stageCrashes data tokens env ||
        match (reg.runStage data tokens env).1 with
        | .error _ => false
        | .ok next => reg.stagesCrash (some next) rest env) := by
  have henv := reg.runStage_env data tokens env
  rw [stagesCrash]
  cases hrun : reg.runStage data tokens env with
  | mk result after =>
    rw [hrun] at henv
    obtain rfl : after = env := henv
    cases result <;> rfl

theorem crashes_of_isPipeline (reg : Registry) {line : ParsedLine}
    (hline : line.isPipeline = true) (hstages : line.isEmpty = false) (piped : Option String)
    (env : Environment) : reg.crashes line piped env = reg.stagesCrash none line.stages env := by
  rw [crashes, hstages, hline]
  rfl

theorem dispatchCrashes_of_checkArity {tokens : List String} {cmd : Command}
    (hcmd : reg.get? (tokens.headD "") = some cmd)
    (harity : checkArity cmd (stageArgs tokens) = .ok ()) (piped : Option String)
    (env : Environment) :
    reg.dispatchCrashes tokens piped env = cmd.crashes (stageArgs tokens) piped env := by
  rw [dispatchCrashes, if_neg (toLower_ne_help_of_get? hcmd), resolveStage_of_get? hcmd]
  simp only [harity]

/-- A stage that sorts a text on which sorting may crash. -/
def MaySort (reg : Registry) (tokens : List String) : Prop :=
  ∃ args, reg.resolveStage tokens = .ok (.sort, args) ∧ ∃ text, Filter.MayCrash text

theorem maySort_of_stagesCrash {data : Option String} {stages : List (List String)}
    {env : Environment} (h : reg.stagesCrash data stages env = true) :
    ∃ tokens ∈ stages, reg.MaySort tokens := by
  induction stages generalizing data with
  | nil => cases h
  | cons tokens rest ih =>
    rw [stagesCrash_cons, Bool.or_eq_true] at h
    rcases h with hfirst | hrest
    · rw [stageCrashes] at hfirst
      split at hfirst
      · cases hfirst
      · rename_i cmd args piped hprepare
        obtain ⟨rfl, htext⟩ := Command.sort_of_crashes hfirst
        exact ⟨tokens, List.mem_cons_self .., args, (prepareStage_eq_ok.mp hprepare).1, htext⟩
    · split at hrest
      · cases hrest
      · obtain ⟨tokens', hmem, hsort⟩ := ih hrest
        exact ⟨tokens', List.mem_cons_of_mem _ hmem, hsort⟩

/-- Only a line with a stage that sorts crashes. -/
theorem maySort_of_crashes {line : ParsedLine} {piped : Option String} {env : Environment}
    (h : reg.crashes line piped env = true) : ∃ tokens ∈ line.stages, reg.MaySort tokens := by
  rw [crashes] at h
  split at h
  · cases h
  · rename_i hstages
    split at h
    · cases hline : line.stages with
      | nil => simp [ParsedLine.isEmpty, hline] at hstages
      | cons tokens rest =>
        rw [hline, dispatchCrashes] at h
        split at h
        · cases h
        · split at h
          · cases h
          · rename_i cmd args hresolve
            split at h
            · cases h
            · obtain ⟨rfl, htext⟩ := Command.sort_of_crashes h
              exact ⟨tokens, List.mem_cons_self .., args, hresolve, htext⟩
    · exact maySort_of_stagesCrash h

end Registry

end ShellTutor

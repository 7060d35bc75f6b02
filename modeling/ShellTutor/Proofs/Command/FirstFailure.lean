import ShellTutor.Proofs.Command.Failure

/-!
# The first stage that fails

A pipeline looks at a stage only when all stages before it have handed something on. So the stage at
which it stops decides all: what stands behind it has no say in the failure, and a pipeline that
ends before it succeeds. By induction on the stages, with the data that the first of them gets.
-/

namespace ShellTutor.Registry

/-- Stages, the first of which has number `stage` and gets `data`, stop at the one with index
`n`. -/
structure StopsAt (reg : Registry) (env : Environment) (stage : Nat) (data : Option String)
    (stages : List (List String)) (n : Nat) (cause : ShellError) : Prop where
  inside : n < stages.length
  /-- The cause is that of one stage, and not already one of a pipeline. -/
  plain : cause.Stageless
  before : ∀ front, front <+: stages → front.length ≤ n →
    ∃ next, (reg.runStages stage data front env).1 = .ok next
  /-- All stages that begin like these stop for the same cause. -/
  alike : ∀ other, other.take (n + 1) = stages.take (n + 1) →
    (reg.runStages stage data other env).1 = .error (.pipelineAborted (stage + n) cause)

variable {reg : Registry} {env : Environment} {stage : Nat} {data : Option String}
  {tokens : List String} {rest : List (List String)} {cause : ShellError}

/-- What has the same first stages as a pipeline starts with the pipeline's first stage. -/
theorem exists_eq_cons_of_take {n : Nat} {other : List (List String)}
    (h : other.take (n + 1) = (tokens :: rest).take (n + 1)) :
    ∃ later, other = tokens :: later ∧ later.take n = rest.take n := by
  cases other with
  | nil => cases h
  | cons first later =>
    rw [List.take_succ_cons, List.take_succ_cons, List.cons.injEq] at h
    exact ⟨later, by rw [h.1], h.2⟩

theorem stopsAt_zero (h : (reg.runStage data tokens env).1 = .error cause) :
    reg.StopsAt env stage data (tokens :: rest) 0 cause := by
  have hplain := reg.stageless_runStage data tokens env cause h
  constructor
  case inside => exact Nat.zero_lt_succ _
  case plain => exact hplain
  case before =>
    intro front _ hlength
    rw [List.length_eq_zero_iff.mp (Nat.le_zero.mp hlength)]
    exact ⟨_, rfl⟩
  case alike =>
    intro other hother
    obtain ⟨later, rfl, -⟩ := exists_eq_cons_of_take hother
    rw [runStages_cons, h]
    exact congrArg Except.error (hplain.inStage stage)

theorem StopsAt.succ {next : String} (h : (reg.runStage data tokens env).1 = .ok next) {n : Nat}
    (hrest : reg.StopsAt env (stage + 1) (some next) rest n cause) :
    reg.StopsAt env stage data (tokens :: rest) (n + 1) cause := by
  constructor
  case inside => exact Nat.succ_lt_succ hrest.inside
  case plain => exact hrest.plain
  case before =>
    intro front hprefix hlength
    cases front with
    | nil => exact ⟨_, rfl⟩
    | cons first later =>
      obtain ⟨rfl, hlater⟩ := List.cons_prefix_cons.mp hprefix
      rw [runStages_cons, h]
      exact hrest.before later hlater (Nat.le_of_succ_le_succ hlength)
  case alike =>
    intro other hother
    obtain ⟨later, rfl, hlater⟩ := exists_eq_cons_of_take hother
    have hnumber : stage + (n + 1) = stage + 1 + n := by omega
    rw [runStages_cons, h, hnumber]
    exact hrest.alike later hlater

theorem exists_stopsAt {stages : List (List String)} {e : ShellError}
    (h : (reg.runStages stage data stages env).1 = .error e) :
    ∃ n cause, reg.StopsAt env stage data stages n cause := by
  induction stages generalizing stage data with
  | nil => cases h
  | cons tokens rest ih =>
    cases hrun : (reg.runStage data tokens env).1 with
    | error cause => exact ⟨0, cause, stopsAt_zero hrun⟩
    | ok next =>
      rw [runStages_cons, hrun] at h
      obtain ⟨n, cause, hrest⟩ := ih h
      exact ⟨n + 1, cause, hrest.succ hrun⟩

/-- The first stage that fails decides. It has a number within the pipeline, what ends before it
succeeds, and whatever agrees with the pipeline up to it fails in the same way. The environment
stays as it is in all of them. -/
theorem runPipeline_first_failure {names : List String} {stages : List (List String)}
    {env : Environment} {e : ShellError}
    (h : ((builtin.restrict names).runPipeline stages env).1 = .error e) :
    ∃ k cause, e = .pipelineAborted k cause ∧ cause.Stageless ∧ 1 ≤ k ∧ k ≤ stages.length ∧
      (∀ front, front <+: stages → front.length < k →
        ∃ data, (builtin.restrict names).runPipeline front env = (.ok data, env)) ∧
      ∀ other, other.take k = stages.take k →
        (builtin.restrict names).runPipeline other env = (.error e, env) := by
  generalize builtin.restrict names = reg at h ⊢
  obtain ⟨n, cause, hstops⟩ := exists_stopsAt h
  obtain rfl : e = .pipelineAborted (1 + n) cause :=
    Except.error.inj (h.symm.trans (hstops.alike stages rfl))
  refine ⟨1 + n, cause, rfl, hstops.plain, Nat.le_add_right 1 n, ?_, ?_, ?_⟩
  · rw [Nat.add_comm]
    exact hstops.inside
  · intro front hprefix hlength
    obtain ⟨next, hnext⟩ := hstops.before front hprefix (by omega)
    exact ⟨next, Prod.ext hnext (reg.runPipeline_env front env)⟩
  · intro other hother
    rw [Nat.add_comm] at hother
    exact Prod.ext (hstops.alike other hother) (reg.runPipeline_env other env)

/-- A search without a match hands no lines on, whatever is to come after it. -/
theorem runPipeline_first_failure_of_no_input :
    ∃ env : Environment, env = ⟨"/", "/", "quest", .empty "quest" "quest" ⟨0⟩, {}, [], ⟨60⟩⟩ ∧
      ((builtin.restrict ["echo", "grep", "wc"]).runPipeline
        [["echo", "b", "c"], ["grep", "d"], ["wc", "-l"], ["wc", "-c"]] env).1 =
          .error (.pipelineAborted 3 (.invalidArgument "no input from previous stage")) ∧
      (∃ data, (builtin.restrict ["echo", "grep", "wc"]).runPipeline
        [["echo", "b", "c"], ["grep", "d"]] env = (.ok data, env)) ∧
      (builtin.restrict ["echo", "grep", "wc"]).runPipeline
        [["echo", "b", "c"], ["grep", "d"], ["wc", "-l"], ["rm", "f"], ["ls"]] env =
          (.error (.pipelineAborted 3 (.invalidArgument "no input from previous stage")), env) := by
  obtain ⟨env, henv⟩ : ∃ env : Environment,
      env = ⟨"/", "/", "quest", .empty "quest" "quest" ⟨0⟩, {}, [], ⟨60⟩⟩ := ⟨_, rfl⟩
  have hfails : ((builtin.restrict ["echo", "grep", "wc"]).runPipeline
      [["echo", "b", "c"], ["grep", "d"], ["wc", "-l"], ["wc", "-c"]] env).1 =
        .error (.pipelineAborted 3 (.invalidArgument "no input from previous stage")) := by
    subst henv
    decide +kernel
  obtain ⟨k, cause, he, -, -, -, hbefore, halike⟩ := runPipeline_first_failure hfails
  obtain ⟨rfl, rfl⟩ := ShellError.pipelineAborted.inj he
  generalize builtin.restrict ["echo", "grep", "wc"] = reg at hfails hbefore halike ⊢
  refine ⟨env, henv, hfails, ?_, ?_⟩
  · exact hbefore [["echo", "b", "c"], ["grep", "d"]] ⟨[["wc", "-l"], ["wc", "-c"]], rfl⟩
      (by decide)
  · exact halike [["echo", "b", "c"], ["grep", "d"], ["wc", "-l"], ["rm", "f"], ["ls"]] rfl

end ShellTutor.Registry

import ShellTutor.Proofs.Command.Effect

/-!
# Operands one by one

Three commands take any number of operands: `mkdir`, `touch` and, behind a mode, `chmod`. Each deals
with its first operand as if it stood alone, and goes on with the others, on the tree that it has
reached, just if that succeeds. By induction on the operands, a command with several of them is that
command with one after the other, up to the first that fails; what stands behind it is not even
looked at.
-/

namespace ShellTutor

variable {run : List String → Environment → Outcome} {env after mid : Environment}
  {operand : String} {operands rest : List String} {e : ShellError} {out : CommandOutput}

/-- The environment that a command reaches when it is run for each operand alone, in order. -/
def oneByOne (run : List String → Environment → Outcome) (env : Environment)
    (operands : List String) : Environment :=
  operands.foldl (fun env operand => (run [operand] env).2) env

/-- No operand fails alone in the environment that is reached with those before it. -/
def NoneFails (run : List String → Environment → Outcome) (env : Environment)
    (operands : List String) : Prop :=
  ∀ before operand rest, operands = before ++ operand :: rest →
    ∃ out, (run [operand] (oneByOne run env before)).1 = .ok out

/-- A command with several operands is that command with one after the other, up to the first that
fails alone. -/
structure StopsAtFirst (run : List String → Environment → Outcome) : Prop where
  /-- An operand that fails alone changes nothing. -/
  unchanged : ∀ env operand e after, run [operand] env = (.error e, after) → after = env
  ok_iff : ∀ env operands after, (∃ out, run operands env = (.ok out, after)) ↔
    NoneFails run env operands ∧ after = oneByOne run env operands
  /-- The cause is that of the first operand that fails, and those behind it have no effect. -/
  error_iff : ∀ env operands e after, run operands env = (.error e, after) ↔
    ∃ before operand rest, operands = before ++ operand :: rest ∧ NoneFails run env before ∧
      (run [operand] (oneByOne run env before)).1 = .error e ∧
      after = oneByOne run env (before ++ [operand])

theorem StopsAtFirst.noneFails (h : StopsAtFirst run) (hok : (run operands env).1 = .ok out) :
    NoneFails run env operands :=
  ((h.ok_iff env operands (run operands env).2).mp ⟨out, Prod.ext hok rfl⟩).1

/-- The first operand is dealt with as if it stood alone, and the others just if that succeeds. What
a command gives back for several operands is left open. -/
structure GoesOn (run : List String → Environment → Outcome) : Prop where
  nil : ∀ env, ∃ out, run [] env = (.ok out, env)
  unchanged : ∀ {env operand e after}, run [operand] env = (.error e, after) → after = env
  fails : ∀ {env operand e after} rest, run [operand] env = (.error e, after) →
    run (operand :: rest) env = (.error e, after)
  succeeds : ∀ {env operand out mid} rest, run [operand] env = (.ok out, mid) →
    (run (operand :: rest) env).1.map (fun _ => ()) = (run rest mid).1.map (fun _ => ()) ∧
      (run (operand :: rest) env).2 = (run rest mid).2

theorem oneByOne_cons (run : List String → Environment → Outcome) (env : Environment)
    (operand : String) (rest : List String) :
    oneByOne run env (operand :: rest) = oneByOne run (run [operand] env).2 rest := rfl

theorem noneFails_nil (run : List String → Environment → Outcome) (env : Environment) :
    NoneFails run env [] := by
  intro before operand rest hsplit
  simp at hsplit

theorem noneFails_cons :
    NoneFails run env (operand :: rest) ↔
      (∃ out, (run [operand] env).1 = .ok out) ∧ NoneFails run (run [operand] env).2 rest := by
  constructor
  · intro h
    refine ⟨h [] operand rest rfl, fun before other more hsplit => ?_⟩
    exact h (operand :: before) other more (by rw [hsplit]; rfl)
  · rintro ⟨hfirst, hrest⟩ before other more hsplit
    cases before with
    | nil =>
      obtain ⟨rfl, rfl⟩ := List.cons.inj hsplit
      exact hfirst
    | cons first before =>
      obtain ⟨rfl, hmore⟩ := List.cons.inj hsplit
      exact hrest before other more hmore

/-- One operand fails for this cause, none before it does, and those behind it have no effect. -/
def FailsAt (run : List String → Environment → Outcome) (env : Environment)
    (operands : List String) (e : ShellError) (after : Environment) : Prop :=
  ∃ before operand rest, operands = before ++ operand :: rest ∧ NoneFails run env before ∧
    (run [operand] (oneByOne run env before)).1 = .error e ∧
    after = oneByOne run env (before ++ [operand])

theorem failsAt_nil : ¬ FailsAt run env [] e after := by
  rintro ⟨before, operand, rest, hsplit, -⟩
  simp at hsplit

/-- The first operand is the one that fails. -/
theorem failsAt_cons_of_error {e' : ShellError} (hfirst : run [operand] env = (.error e', mid)) :
    FailsAt run env (operand :: rest) e after ↔ e' = e ∧ mid = after := by
  constructor
  · rintro ⟨before, other, more, hsplit, hbefore, hother, rfl⟩
    cases before with
    | nil =>
      obtain ⟨rfl, rfl⟩ := List.cons.inj hsplit
      have hcause : (run [operand] env).1 = .error e := hother
      rw [hfirst, Except.error.injEq] at hcause
      exact ⟨hcause, (congrArg Prod.snd hfirst).symm⟩
    | cons first before =>
      obtain ⟨rfl, -⟩ := List.cons.inj hsplit
      obtain ⟨⟨out, hout⟩, -⟩ := noneFails_cons.mp hbefore
      rw [hfirst] at hout
      cases hout
  · rintro ⟨rfl, rfl⟩
    refine ⟨[], operand, rest, rfl, noneFails_nil run env, ?_, ?_⟩
    · exact congrArg Prod.fst hfirst
    · exact (congrArg Prod.snd hfirst).symm

/-- The one that fails is among the others. -/
theorem failsAt_cons_of_ok (hfirst : run [operand] env = (.ok out, mid)) :
    FailsAt run env (operand :: rest) e after ↔ FailsAt run mid rest e after := by
  have hmid : (run [operand] env).2 = mid := congrArg Prod.snd hfirst
  constructor
  · rintro ⟨before, other, more, hsplit, hbefore, hother, rfl⟩
    cases before with
    | nil =>
      obtain ⟨rfl, rfl⟩ := List.cons.inj hsplit
      have hcause : (run [operand] env).1 = .error e := hother
      rw [hfirst] at hcause
      cases hcause
    | cons first before =>
      obtain ⟨rfl, rfl⟩ := List.cons.inj hsplit
      obtain ⟨-, hlater⟩ := noneFails_cons.mp hbefore
      rw [hmid] at hlater
      rw [oneByOne_cons, hmid] at hother
      refine ⟨before, other, more, rfl, hlater, hother, ?_⟩
      rw [List.cons_append, oneByOne_cons, hmid]
  · rintro ⟨before, other, more, rfl, hbefore, hother, rfl⟩
    refine ⟨operand :: before, other, more, rfl, noneFails_cons.mpr ⟨⟨out, ?_⟩, ?_⟩, ?_, ?_⟩
    · rw [hfirst]
    · rwa [hmid]
    · rwa [oneByOne_cons, hmid]
    · rw [List.cons_append, oneByOne_cons, hmid]

namespace GoesOn

variable (h : GoesOn run)
include h

/-- Behind an operand that succeeds the command ends as it does on the others. -/
theorem cons_iff (rest : List String) (hfirst : run [operand] env = (.ok out, mid)) :
    ((∃ out, run (operand :: rest) env = (.ok out, after)) ↔
      ∃ out, run rest mid = (.ok out, after)) ∧
    ∀ e, run (operand :: rest) env = (.error e, after) ↔ run rest mid = (.error e, after) := by
  obtain ⟨hresult, hleft⟩ := h.succeeds rest hfirst
  generalize run (operand :: rest) env = all at hresult hleft
  generalize run rest mid = others at hresult hleft
  obtain ⟨result, left⟩ := all
  obtain ⟨result', left'⟩ := others
  cases result <;> cases result' <;> simp_all

theorem ok_iff (env : Environment) (operands : List String) (after : Environment) :
    (∃ out, run operands env = (.ok out, after)) ↔
      NoneFails run env operands ∧ after = oneByOne run env operands := by
  induction operands generalizing env with
  | nil =>
    obtain ⟨out, hnil⟩ := h.nil env
    simp [hnil, noneFails_nil, oneByOne, eq_comm]
  | cons operand rest ih =>
    rw [noneFails_cons, oneByOne_cons]
    rcases hfirst : run [operand] env with ⟨e | out, mid⟩
    · simp [h.fails rest hfirst]
    · rw [(h.cons_iff rest hfirst).1, ih]
      simp

theorem error_iff (env : Environment) (operands : List String) (e : ShellError)
    (after : Environment) :
    run operands env = (.error e, after) ↔ FailsAt run env operands e after := by
  induction operands generalizing env with
  | nil =>
    obtain ⟨out, hnil⟩ := h.nil env
    simp [hnil, failsAt_nil]
  | cons operand rest ih =>
    rcases hfirst : run [operand] env with ⟨e' | out, mid⟩
    · rw [h.fails rest hfirst, failsAt_cons_of_error hfirst, Prod.mk.injEq, Except.error.injEq]
    · rw [(h.cons_iff rest hfirst).2, ih, failsAt_cons_of_ok hfirst]

theorem stopsAtFirst : StopsAtFirst run where
  unchanged := fun _ _ _ _ => h.unchanged
  ok_iff := h.ok_iff
  error_iff := h.error_iff

end GoesOn

/-- So does every command that goes through operands with one operation, where that looks at nothing
in the environment but what stays. -/
theorem goesOn_of_eachOperand {β : Type}
    {act : Environment → FileTree → String → Except ShellError (β × FileTree)}
    (answer : List β → CommandOutput)
    (hrun : ∀ operands env, run operands env =
      ((eachOperand (act env) env.tree operands).1.map answer,
        { env with tree := (eachOperand (act env) env.tree operands).2 }))
    (hact : ∀ (env : Environment) (tree : FileTree), act { env with tree } = act env) :
    GoesOn run where
  nil := fun env => ⟨answer [], by rw [hrun]; rfl⟩
  unchanged := by
    intro env operand e after hfail
    rw [hrun, eachOperand] at hfail
    cases hfirst : act env env.tree operand with
    | error e =>
      rw [hfirst] at hfail
      exact (congrArg Prod.snd hfail).symm
    | ok made =>
      rw [hfirst] at hfail
      cases hfail
  fails := by
    intro env operand e after rest hfail
    rw [hrun, eachOperand] at hfail ⊢
    cases hfirst : act env env.tree operand with
    | error e =>
      rw [hfirst] at hfail
      exact hfail
    | ok made =>
      rw [hfirst] at hfail
      cases hfail
  succeeds := by
    intro env operand out mid rest hok
    rw [hrun, eachOperand] at hok
    cases hfirst : act env env.tree operand with
    | error e =>
      rw [hfirst] at hok
      cases hok
    | ok made =>
      obtain ⟨b, tree⟩ := made
      rw [hfirst] at hok
      obtain rfl : { env with tree } = mid := congrArg Prod.snd hok
      rw [hrun, hrun, eachOperand, hfirst, hact env tree]
      simp only
      rcases eachOperand (act env) tree rest with ⟨e | bs, tree⟩ <;> exact ⟨rfl, rfl⟩

/-- Where an operand leads does not hang on the tree. -/
theorem resolve_withTree (env : Environment) (tree : FileTree) (operand : String) :
    ({ env with tree } : Environment).resolve operand = env.resolve operand := rfl

namespace Command

/-- Several operands of `mkdir` and `touch`, and of `chmod` behind a mode that it can read, are as
good as the command with one after the other, up to the first that fails alone: the command succeeds
just if none fails, and leaves what they leave together; else it fails for the cause of the first
that fails, and leaves what those up to it leave. Behind another mode nothing is done. -/
theorem operands_one_by_one (piped : Option String) :
    (StopsAtFirst fun operands => mkdir.execute operands piped) ∧
    (StopsAtFirst fun operands => touch.execute operands piped) ∧
    (∀ mode spec, ModeSpec.ofString mode = .ok spec →
      StopsAtFirst fun operands => chmod.execute (mode :: operands) piped) ∧
    ∀ mode e, ModeSpec.ofString mode = .error e → ∀ operands env,
      chmod.execute (mode :: operands) piped env = (.error e, env) := by
  refine ⟨?_, ?_, fun mode spec hmode => ?_, fun mode e hmode operands env => ?_⟩
  · have hact (env : Environment) (tree : FileTree) :
        Files.makeDirectory { env with tree } = Files.makeDirectory env := by
      funext t operand
      rw [Files.makeDirectory_eq, Files.makeDirectory_eq, resolve_withTree]
    exact (goesOn_of_eachOperand (fun _ => .nothing) (fun _ _ => rfl) hact).stopsAtFirst
  · have hact (env : Environment) (tree : FileTree) :
        Files.touchFile { env with tree } = Files.touchFile env := by
      funext t operand
      rw [Files.touchFile_eq, Files.touchFile_eq, resolve_withTree]
    exact (goesOn_of_eachOperand (fun _ => .nothing) (fun _ _ => rfl) hact).stopsAtFirst
  · have hact (env : Environment) (tree : FileTree) :
        Files.changeMode { env with tree } spec = Files.changeMode env spec := by
      funext t operand
      rw [Files.changeMode_eq, Files.changeMode_eq, resolve_withTree]
    have hrun (operands : List String) (env : Environment) :
        chmod.execute (mode :: operands) piped env =
          ((eachOperand (Files.changeMode env spec) env.tree operands).1.map fun report =>
              .notice (Text.unlines report),
            { env with
              tree := (eachOperand (Files.changeMode env spec) env.tree operands).2 }) := by
      rw [execute, Files.changeModes, List.headD_cons, hmode]
      rfl
    exact (goesOn_of_eachOperand _ hrun hact).stopsAtFirst
  · simp [execute, Files.changeModes, hmode]

/-- The third directory is there already by then, and the fourth is not made. Of three operands of
`chmod` the second is missing. -/
theorem operands_one_by_one_of_repeated_name :
    ∃ env : Environment, ∃ spec : ModeSpec,
      env = ⟨"/", "/", "quest", .empty "quest" "quest" ⟨0⟩, {}, [], ⟨60⟩⟩ ∧
      mkdir.execute ["a", "a//b", "/a", "c"] none env = (.error (.alreadyExists "a"),
        oneByOne (fun operands => mkdir.execute operands none) env ["a", "a//b", "/a"]) ∧
      (mkdir.execute ["a", "a//b", "/a", "c"] none env).2.tree.keys = ["/", "/a", "/a/b"] ∧
      ModeSpec.ofString "o-x" = .ok spec ∧
      chmod.execute ["o-x", "/", "a", "."] none env = (.error (.notFound "a"),
        oneByOne (fun operands => chmod.execute ("o-x" :: operands) none) env ["/", "a"]) ∧
      ModeSpec.ofString "o-z" = .error (.invalidMode "o-z") ∧
      chmod.execute ["o-z", "/"] none env = (.error (.invalidMode "o-z"), env) := by
  obtain ⟨env, henv⟩ : ∃ env : Environment,
      env = ⟨"/", "/", "quest", .empty "quest" "quest" ⟨0⟩, {}, [], ⟨60⟩⟩ := ⟨_, rfl⟩
  obtain ⟨hmkdir, -, hchmod, hinvalid⟩ := operands_one_by_one none
  have hmode : ModeSpec.ofString "o-x" =
      .ok (.symbolic [⟨⟨false, false, true⟩, .remove, ⟨false, false, true⟩⟩]) := by
    rw [← Outcome.toOption_eq_some_iff]
    decide +kernel
  have hbad : ModeSpec.ofString "o-z" = .error (.invalidMode "o-z") := by
    decide +kernel
  have hchmod := hchmod "o-x" _ hmode
  have hmade : (mkdir.execute ["a", "a//b"] none env).1 = .ok .nothing := by
    subst henv
    decide +kernel
  have hexists : (mkdir.execute ["/a"] none
      (oneByOne (fun operands => mkdir.execute operands none) env ["a", "a//b"])).1 =
        .error (.alreadyExists "a") := by
    subst henv
    decide +kernel
  have hkeys : (oneByOne (fun operands => mkdir.execute operands none) env
      ["a", "a//b", "/a"]).tree.keys = ["/", "/a", "/a/b"] := by
    subst henv
    decide +kernel
  have hchanged : (chmod.execute ["o-x", "/"] none env).1 =
      .ok (.notice "mode of '/' is now 754 (rwxr-xr--)") := by
    subst henv
    decide +kernel
  have hmissing : (chmod.execute ["o-x", "a"] none
      (oneByOne (fun operands => chmod.execute ("o-x" :: operands) none) env ["/"])).1 =
        .error (.notFound "a") := by
    subst henv
    decide +kernel
  have hboth := hmkdir.noneFails hmade
  have hone := hchmod.noneFails hchanged
  have hstops := (hmkdir.error_iff env ["a", "a//b", "/a", "c"] _ _).mpr
    ⟨["a", "a//b"], "/a", ["c"], rfl, hboth, hexists, rfl⟩
  refine ⟨env, _, henv, hstops, ?_, hmode, ?_, hbad, hinvalid "o-z" _ hbad ["/"] env⟩
  · rw [hstops]
    exact hkeys
  · exact (hchmod.error_iff env ["/", "a", "."] _ _).mpr
      ⟨["/"], "a", ["."], rfl, hone, hmissing, rfl⟩

end Command

end ShellTutor

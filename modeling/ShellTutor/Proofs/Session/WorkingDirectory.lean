import ShellTutor.Proofs.Session.Reachable

/-!
# The working directory

A session starts in its home directory, and only a `cd` that succeeds ever moves it. Directories are
never removed, so a place that was there once is there for good. What keeps the session from rising
above home is a test on the texts of paths, which is right because both paths are resolved.
-/

namespace ShellTutor

namespace Files

variable {env : Environment}

/-- A destination is a directory that is there, and not above home. -/
theorem IsDestination.sound {target : String} (h : IsDestination env target)
    (hhome : Path.IsResolved env.home) (hthere : env.tree.HasDirectory env.home) :
    Path.IsResolved target ∧ env.tree.HasDirectory target ∧ ¬ Path.IsAbove target env.home := by
  rcases h with rfl | ⟨hresolved, hdir, hroot, hprefix⟩
  · exact ⟨hhome, hthere, Path.not_isAbove_self _⟩
  · refine ⟨hresolved, hdir, fun habove => ?_⟩
    rcases habove.root_or_isPrefixOf hresolved.isNormal hhome.isNormal with heq | heq
    · exact hroot heq
    · exact hprefix heq

/-- Home itself, the root and whatever is above home all lead home. -/
theorem changeDirectory_home {arg : String} (hhome : Path.IsResolved env.home)
    (hthere : env.tree.HasDirectory env.home)
    (h : env.resolve arg = env.home ∨ env.resolve arg = "/" ∨
      Path.IsAbove (env.resolve arg) env.home) :
    changeDirectory [arg] env = (.ok .nothing, { env with cwd := env.home }) := by
  have htarget : destination env arg = env.home := by
    rw [destination]
    rcases h with heq | heq | habove
    · rw [heq, ite_self]
    · rw [if_pos (Or.inl heq)]
    · exact if_pos (habove.root_or_isPrefixOf (Path.isResolved_resolve _ _).isNormal hhome.isNormal)
  obtain ⟨node, hnode, hdir⟩ := hthere
  have hget : env.tree.get? env.home = some node := by rw [FileTree.get?, hhome.normalize_eq, hnode]
  rw [changeDirectory]
  simp only [htarget, hget, hdir, if_true]

end Files

namespace Registry

/-- Where `cd` is enabled, a line that is a `cd` with one operand runs it. -/
theorem run_cd {names : List String} (henabled : (builtin.restrict names).isEnabled "cd" = true)
    (arg : String) (env : Environment) :
    (builtin.restrict names).run { stages := [["cd", arg]] } none env =
      Files.changeDirectory [arg] env := by
  have hcmd : (builtin.restrict names).get? "cd" = some .cd :=
    get?_of_isEnabled (by decide +kernel) henabled
  have hargs : stageArgs ["cd", arg] = [arg] := stageArgs_name .cd [arg]
  rw [run_singleton, dispatch_of_checkArity hcmd (by rw [hargs]; rfl), hargs, Command.execute]

end Registry

namespace Session

variable {s next : Session} {line : String} {now : Timestamp} {events : List CommandEvent}
  {lesson : Lesson}

/-- Where a session of a lesson is. -/
structure Placed (lesson : Lesson) (s : Session) : Prop where
  home : s.home = lesson.home
  registry : s.registry = Registry.builtin.restrict lesson.commands
  homeThere : s.tree.HasDirectory lesson.home
  resolved : Path.IsResolved s.cwd
  there : s.tree.HasDirectory s.cwd
  below : ¬ Path.IsAbove s.cwd lesson.home

/-- A line is reported under the command of its first stage. -/
theorem command_runEvent {parsed : ParsedLine} {name : String} (hname : name ≠ commandKey "")
    (h : commandKey ((parsed.stages.headD []).headD "") = name) (s : Session) (line : String)
    (now : Timestamp) : (s.runEvent line parsed now).command = name := by
  obtain ⟨stages, redirect⟩ := parsed
  match stages, h with
  | [], h => exact absurd h.symm hname
  | [] :: rest, h => exact absurd h.symm hname
  | (word :: words) :: rest, h => exact h

/-- A submission stays where it is, or it is reported as a `cd` that succeeded. -/
theorem Submitted.cwd_cases (h : s.Submitted line now events next) :
    next.cwd = s.cwd ∨
      (∃ event : CommandEvent, events = [event] ∧ event.command = "cd" ∧ event.succeeded = true) ∧
        Files.IsDestination (s.environment now) next.cwd := by
  cases h with
  | @ran _ _ parsed _ =>
    have hcwd : ((s.logged (Text.trim line)).afterRun parsed now).cwd =
        (s.registry.run parsed none ((s.logged (Text.trim line)).environment now)).2.cwd := by
      rw [afterRun_frame]
      rfl
    rcases s.registry.run_cases parsed none ((s.logged (Text.trim line)).environment now) with
      ⟨tree, -, hafter⟩ | ⟨vars, hafter⟩ | ⟨hname, target, hdestination, hrun⟩
    · left
      rw [seen, hcwd, hafter]
      rfl
    · left
      rw [seen, hcwd, hafter]
      rfl
    · right
      refine ⟨⟨_, rfl, ?_, ?_⟩, ?_⟩
      · exact command_runEvent (by decide +kernel) hname _ _ _
      · have hok : (s.registry.run parsed none
            ((s.logged (Text.trim line)).environment now)).1.isOk = true := by
          rw [hrun]
          rfl
        exact hok
      · rw [seen, hcwd, hrun]
        exact hdestination
  | _ => exact Or.inl rfl

theorem Placed.submitted (hp : s.Placed lesson) (hhome : Path.IsResolved lesson.home)
    (h : s.Submitted line now events next) : next.Placed lesson := by
  obtain ⟨hsame, hregistry⟩ := h.fixed
  have hkept : ∀ key, s.tree.HasDirectory key → next.tree.HasDirectory key :=
    fun key => h.changes.hasDirectory
  have hplace : Path.IsResolved next.cwd ∧ s.tree.HasDirectory next.cwd ∧
      ¬ Path.IsAbove next.cwd lesson.home := by
    rcases h.cwd_cases with heq | ⟨-, hdestination⟩
    · rw [heq]
      exact ⟨hp.resolved, hp.there, hp.below⟩
    · have hhome' : (s.environment now).home = lesson.home := hp.home
      have hsound := hdestination.sound (hhome' ▸ hhome) (hhome' ▸ hp.homeThere)
      rwa [hhome'] at hsound
  obtain ⟨hresolved, hthere, hbelow⟩ := hplace
  exact ⟨hsame.trans hp.home, hregistry.trans hp.registry, hkept _ hp.homeThere, hresolved,
    hkept _ hthere, hbelow⟩

theorem placed_of_reachable (hhome : Path.IsResolved lesson.home) (h : Reachable lesson s) :
    s.Placed lesson := by
  induction h with
  | start h =>
    obtain ⟨tree, hseed, rfl⟩ := ofLesson_eq_ok.mp h
    have hthere := FileTree.hasDirectory_ofSeed hseed
    rw [hhome.normalize_eq] at hthere
    exact ⟨rfl, rfl, hthere, hhome, hthere, Path.not_isAbove_self _⟩
  | watch board _ ih => exact ⟨ih.home, ih.registry, ih.homeThere, ih.resolved, ih.there, ih.below⟩
  | submit line now h ih => exact ih.submitted hhome ((sound_of_reachable h).submitted line now)

theorem cwd_submit_of_parse (hcommands : s.takesCommands = true) (hline : Text.trim line ≠ "")
    {parsed : ParsedLine} (hparse : ParsedLine.parse (Text.trim line) = .ok parsed)
    (now : Timestamp) :
    (s.submit line now).2.cwd =
      (s.registry.run parsed none ((s.logged (Text.trim line)).environment now)).2.cwd := by
  rw [submit_of_parse hcommands hline hparse now, seen, afterRun_frame]
  rfl

/-- Where `cd` is enabled, it moves home when its operand leads there, to the root, or above. -/
theorem Placed.submit_cd (hp : s.Placed lesson) (hhome : Path.IsResolved lesson.home)
    (hcommands : s.takesCommands = true) (henabled : s.registry.isEnabled "cd" = true) {arg : String}
    (hline : Text.trim line ≠ "")
    (hparse : ParsedLine.parse (Text.trim line) = .ok { stages := [["cd", arg]] })
    (harg : Path.resolve s.cwd arg = lesson.home ∨ Path.resolve s.cwd arg = "/" ∨
      Path.IsAbove (Path.resolve s.cwd arg) lesson.home) (now : Timestamp) :
    (s.submit line now).2.cwd = lesson.home := by
  rw [cwd_submit_of_parse hcommands hline hparse now]
  generalize henv : (s.logged (Text.trim line)).environment now = env
  obtain ⟨hcwd, hsame, htree⟩ : env.cwd = s.cwd ∧ env.home = lesson.home ∧ env.tree = s.tree :=
    henv ▸ ⟨rfl, hp.home, rfl⟩
  rw [hp.registry] at henabled ⊢
  rw [Registry.run_cd henabled, Files.changeDirectory_home]
  · exact hsame
  · rw [hsame]
    exact hhome
  · rw [hsame, htree]
    exact hp.homeThere
  · rw [Environment.resolve, hcwd, hsame]
    exact harg

/-- Moving up one directory from home, or to the root, stays at home, and from a directory in home
it leads back home. -/
theorem Placed.resolve_dotdot (hp : s.Placed lesson) :
    (s.cwd = lesson.home → Path.resolve s.cwd ".." = "/" ∨
      Path.IsAbove (Path.resolve s.cwd "..") lesson.home) ∧
    (Path.parent s.cwd = lesson.home → Path.resolve s.cwd ".." = lesson.home) := by
  by_cases hroot : s.cwd = "/"
  · rw [hroot, Path.resolve_dotdot_root]
    exact ⟨fun _ => Or.inl rfl, fun hparent => hparent⟩
  · obtain ⟨dir, name, hdir, hname, hcwd⟩ := hp.resolved.exists_join hroot
    rw [hcwd, Path.resolve_dotdot_join hdir hname]
    refine ⟨fun heq => Or.inr ?_, fun hparent => ?_⟩
    · rw [← heq]
      exact Path.isAbove_join hdir.isNormal hname.1
    · rwa [Path.parent_join hdir.isNormal hname.1] at hparent

/-- In a lesson whose home is resolved, the working directory is a resolved path to a directory that
is there, and it is not above home. Only a `cd` that succeeds moves it. From home, `cd ..` and
`cd /` lead nowhere else, and from a directory in home `cd ..` leads back. -/
theorem submit_cwd (hhome : Path.resolve "/" lesson.home = lesson.home) (h : Reachable lesson s) :
    (∀ base, Path.resolve base s.cwd = s.cwd) ∧ s.tree.isDirectory s.cwd = true ∧
      ¬ Path.IsAbove s.cwd lesson.home ∧
      (∀ line now, (s.submit line now).2.cwd = s.cwd ∨
        ∃ event : CommandEvent, (s.submit line now).1.events = [event] ∧ event.command = "cd" ∧
          event.succeeded = true) ∧
      (s.registry.isEnabled "cd" = true → s.takesCommands = true → ∀ now,
        (s.cwd = lesson.home →
          (s.submit "cd .." now).2.cwd = lesson.home ∧ (s.submit "cd /" now).2.cwd = lesson.home) ∧
        (Path.parent s.cwd = lesson.home → (s.submit "cd .." now).2.cwd = lesson.home)) := by
  have hp := placed_of_reachable hhome h
  refine ⟨hp.resolved.resolve_eq, (FileTree.isDirectory_iff hp.resolved.isNormal).mpr hp.there,
    hp.below, ?_, ?_⟩
  · intro line now
    rcases ((sound_of_reachable h).submitted line now).cwd_cases with
      hsame | ⟨⟨event, hevents, hname, hok⟩, -⟩
    · exact Or.inl hsame
    · exact Or.inr ⟨event, hevents, hname, hok⟩
  · intro henabled hcommands now
    obtain ⟨hfromHome, hfromChild⟩ := hp.resolve_dotdot
    have hup : ParsedLine.parse (Text.trim "cd ..") = .ok { stages := [["cd", ".."]] } := by
      decide +kernel
    have hroot : ParsedLine.parse (Text.trim "cd /") = .ok { stages := [["cd", "/"]] } := by
      decide +kernel
    refine ⟨fun hcwd => ⟨?_, ?_⟩, fun hparent => ?_⟩
    · exact hp.submit_cd hhome hcommands henabled (by decide +kernel) hup (Or.inr (hfromHome hcwd)) now
    · exact hp.submit_cd hhome hcommands henabled (by decide +kernel) hroot
        (Or.inr (Or.inl (Path.resolve_root s.cwd))) now
    · exact hp.submit_cd hhome hcommands henabled (by decide +kernel) hup
        (Or.inl (hfromChild hparent)) now

theorem submit_cwd_of_docs :
    ∃ s, Path.resolve "/" "/home/quest" = "/home/quest" ∧
      Reachable { Lesson.blank with tree := [.directory "docs" []] } s ∧
      s.cwd = "/home/quest/docs" ∧ s.tree.isDirectory s.cwd = true ∧
      (s.submit "cd .." ⟨2⟩).2.cwd = "/home/quest" := by
  have hrun : ((ofLesson { Lesson.blank with tree := [.directory "docs" []] } ⟨0⟩).toOption.map
      fun s =>
        let after := (s.submit "cd ./docs" ⟨1⟩).2
        (after.cwd, after.registry.isEnabled "cd", after.takesCommands)) =
      some ("/home/quest/docs", true, true) := by decide +kernel
  have hhome : Path.resolve "/" "/home/quest" = "/home/quest" := by decide +kernel
  obtain ⟨s, hstart, hseen⟩ := exists_start hrun
  simp only [Prod.mk.injEq] at hseen
  obtain ⟨hcwd, henabled, hcommands⟩ := hseen
  have hreachable := hstart.submit "cd ./docs" ⟨1⟩
  obtain ⟨-, hthere, -, -, hmoves⟩ := submit_cwd (by exact hhome) hreachable
  obtain ⟨-, hup⟩ := hmoves henabled hcommands ⟨2⟩
  refine ⟨_, hhome, hreachable, hcwd, hthere, hup ?_⟩
  rw [hcwd]
  decide +kernel

end Session

end ShellTutor

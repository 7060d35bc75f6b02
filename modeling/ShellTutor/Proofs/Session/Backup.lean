import ShellTutor.Proofs.Command.Backup
import ShellTutor.Proofs.Session.Actions
import ShellTutor.Proofs.Session.Selection

/-!
# Backups of a session

Whatever is done with a session, home stays a directory and every file in it has the name of a file.
That is all that a backup relies on, so in every session it succeeds unless something stands in the
way of a copy; then a directory has the name of a file, or `backup` is a file itself.
-/

namespace ShellTutor.Session

open ShellTutor.Path (join normalize)

variable {s begun : Session} {lesson : Lesson} {now₀ now : Timestamp} {line : String}
  {parsed : ParsedLine}

/-- The tree of a session is one that can be backed up. -/
structure Homed (s : Session) : Prop where
  connected : s.tree.Connected
  named : s.tree.FilesNamed
  home : s.tree.HasDirectory (normalize s.home)

theorem homed_of_acts (h : ofLesson lesson now₀ = .ok begun) (actions : List Action) :
    (actions.foldl act begun).Homed := by
  have hsound := sound_ofLesson h
  have hchanges := hsound.changes_acts actions
  obtain ⟨tree, hseed, rfl⟩ := ofLesson_eq_ok.mp h
  refine ⟨(hsound.acts actions).connected,
    hchanges.filesNamed (FileTree.filesNamed_ofSeed hseed), ?_⟩
  rw [(hsound.fixed_acts actions).1]
  exact hchanges.hasDirectory (FileTree.hasDirectory_ofSeed hseed)

/-- The line is a call of the tool for a backup. -/
def AsksForBackup (parsed : ParsedLine) : Prop :=
  ∃ (word : String) (more : List String), word.toLower = "admin" ∧
    parsed = { stages := [word :: "backup" :: more] }

/-- The tool is enabled and can be executed. -/
def HasTool (s : Session) : Prop :=
  s.registry.isEnabled "admin" = true ∧
    ∃ tool, s.tree.get? (join s.home Admin.toolScript) = some tool ∧ tool.isDirectory = false ∧
      tool.permissions.owner.exec = true

/-- A backup succeeds just if nothing stands in the way of the copies. -/
theorem run_backup_cases {names : List String}
    (hregistry : s.registry = Registry.builtin.restrict names) (hs : s.Homed) (htool : s.HasTool)
    (hparsed : AsksForBackup parsed) (now : Timestamp) :
    (s.tree.TakesCopies (join (normalize s.home) "backup") (s.tree.filesIn (normalize s.home)) ∧
        ∃ t', s.tree.BackedUp (normalize s.home) (s.tree.filesIn (normalize s.home)) now t' ∧
          s.run parsed now = (.ok (.text (Text.unlines (Admin.report
            (s.tree.filesIn (normalize s.home))))), { s with tree := t' })) ∨
      ¬ s.tree.TakesCopies (join (normalize s.home) "backup")
          (s.tree.filesIn (normalize s.home)) ∧
        ∃ e t', s.run parsed now = (.error e, { s with tree := t' }) := by
  obtain ⟨word, more, hword, rfl⟩ := hparsed
  obtain ⟨henabled, tool, hfound, hfile, hexec⟩ := htool
  have hready : Admin.isReady (s.environment now) = true := by
    show (s.tree.get? (join s.home Admin.toolScript)).any _ = true
    rw [hfound, Option.any_some, hfile, hexec]
    rfl
  rw [run_eq, hregistry]
  rw [hregistry] at henabled
  rw [Registry.run_backup henabled hready hword more]
  have hconnected : (s.environment now).tree.Connected := hs.connected
  rcases Admin.backup_cases hconnected hs.named hs.home with
    ⟨htakes, t', hbacked, hrun⟩ | ⟨hblocked, e, t', hrun⟩
  · exact Or.inl ⟨htakes, t', hbacked, by rw [hrun]; rfl⟩
  · exact Or.inr ⟨hblocked, e, t', by rw [hrun]; rfl⟩

/-- What is seen of a line that was run: one event, and the tree that the run left. -/
theorem submit_seen (hcommands : s.takesCommands = true) (hline : Text.trim line ≠ "")
    (hparse : ParsedLine.parse (Text.trim line) = .ok parsed) (now : Timestamp) :
    (∃ event, (s.submit line now).1.events = [event] ∧
        event.succeeded = ((s.logged (Text.trim line)).run parsed now).1.isOk) ∧
      (s.submit line now).2.tree = ((s.logged (Text.trim line)).run parsed now).2.tree := by
  obtain ⟨lines, hcommand⟩ :=
    command_of_parse hparse s (.echo (s.prompt ++ " " ++ Text.trim line)) now
  obtain ⟨hevents, hnext⟩ := report_eq ((s.logged (Text.trim line)).afterRun parsed now) lines
    ((s.logged (Text.trim line)).runEvent (Text.trim line) parsed now)
  rw [submit_of_takesCommands hcommands, if_neg hline, hcommand, hevents, hnext]
  refine ⟨⟨_, rfl, rfl⟩, ?_⟩
  rw [seen, afterRun_frame, run_eq]

/-- In a session in which the tool can be used, a backup succeeds just if nothing stands in the way
of the copies, whatever was done before. Then all files of home are copied, and counted. -/
theorem acts_back_up (h : ofLesson lesson now₀ = .ok begun) (actions : List Action)
    (hs : actions.foldl act begun = s) (htool : s.HasTool) :
    ∃ files, s.tree.ListsFiles (normalize s.home) files ∧
      ∀ parsed now, AsksForBackup parsed →
        ((∃ out, (s.run parsed now).1 = .ok out) ↔
          s.tree.TakesCopies (join (normalize s.home) "backup") files) ∧
        (∀ out, (s.run parsed now).1 = .ok out →
          out = .text (Text.unlines (Admin.report files)) ∧
            s.tree.BackedUp (normalize s.home) files now (s.run parsed now).2.tree) ∧
        ∀ line, s.takesCommands = true → ParsedLine.parse (Text.trim line) = .ok parsed →
          ∃ event, (s.submit line now).1.events = [event] ∧
            (event.succeeded = true ↔
              s.tree.TakesCopies (join (normalize s.home) "backup") files) ∧
            (event.succeeded = true →
              (∃ tasks : List String, (s.submit line now).1.lines =
                .echo (s.prompt ++ " " ++ Text.trim line) ::
                  ((Text.lines (Text.unlines (Admin.report files))).map .output ++
                    tasks.map fun task => .notice ("task complete: " ++ task))) ∧
              s.tree.BackedUp (normalize s.home) files now (s.submit line now).2.tree) := by
  have hhomed : s.Homed := hs ▸ homed_of_acts h actions
  have hregistry : s.registry = Registry.builtin.restrict lesson.commands := by
    rw [← hs, ((sound_ofLesson h).fixed_acts actions).2]
    exact registry_of_reachable (.start h)
  refine ⟨s.tree.filesIn (normalize s.home),
    hhomed.connected.listsFiles hhomed.named (Path.isNormal_normalize _), ?_⟩
  intro parsed now hparsed
  refine and_assoc.mp ⟨?_, ?_⟩
  · rcases run_backup_cases hregistry hhomed htool hparsed now with
      ⟨htakes, t', hbacked, hrun⟩ | ⟨hblocked, e, t', hrun⟩
    · rw [hrun]
      exact ⟨iff_of_true ⟨_, rfl⟩ htakes, fun out hout => ⟨(Except.ok.inj hout).symm, hbacked⟩⟩
    · rw [hrun]
      exact ⟨iff_of_false (by rintro ⟨out, ⟨⟩⟩) hblocked, by rintro out ⟨⟩⟩
  · intro line hcommands hparse
    have hline : Text.trim line ≠ "" := by
      obtain ⟨word, more, -, rfl⟩ := hparsed
      exact ne_empty_of_parse hparse (List.cons_ne_nil _ _)
    obtain ⟨⟨event, hevents, hsucceeded⟩, htree⟩ := submit_seen hcommands hline hparse now
    refine ⟨event, hevents, ?_⟩
    -- the history, in which the line now stands, is nothing that a backup looks at
    have hlogged : (s.logged (Text.trim line)).Homed :=
      ⟨hhomed.connected, hhomed.named, hhomed.home⟩
    have hcases :=
      run_backup_cases (s := s.logged (Text.trim line)) hregistry hlogged htool hparsed now
    rcases hcases with ⟨htakes, t', hbacked, hrun⟩ | ⟨hblocked, e, t', hrun⟩
    · rw [hrun] at hsucceeded htree
      refine ⟨iff_of_true hsucceeded htakes, fun _ => ⟨?_, htree ▸ hbacked⟩⟩
      rw [submit_of_takesCommands hcommands, if_neg hline,
        command_of_run_ok hparse s _ (congrArg Prod.fst hrun), present]
      exact exists_tasks_report ..
    · rw [hrun] at hsucceeded
      have hfailed : ¬ event.succeeded = true := by
        rw [hsucceeded]
        exact Bool.false_ne_true
      exact ⟨iff_of_false hfailed hblocked, fun hdone => absurd hdone hfailed⟩

/-- An older copy that only its owner may read is replaced, and stays so. -/
theorem acts_back_up_of_older_copy :
    ∃ (begun s : Session) (files : List (String × String)),
      ofLesson { Lesson.blank with tree :=
        [.directory "scripts" [.file "admin_tool.sh" ""], .file "notes" "new",
          .directory "backup" [(SeedEntry.file "notes" "old").withMode "600", .file "plan" ""]] }
        ⟨0⟩ = .ok begun ∧
      [Action.submit "chmod +x scripts/admin_tool.sh" ⟨1⟩].foldl act begun = s ∧ s.HasTool ∧
      s.tree.ListsFiles "/home/quest" files ∧ ("notes", "new") ∈ files ∧
      s.tree.BackedUp "/home/quest" files ⟨2⟩ (s.submit "admin backup" ⟨2⟩).2.tree ∧
      (s.submit "admin backup" ⟨2⟩).2.tree.node? "/home/quest/backup/notes" =
        some ⟨⟨.readWrite, .none, .none⟩, "quest", "quest", ⟨2⟩, .file "new"⟩ := by
  generalize hlesson : ({ Lesson.blank with tree :=
    [.directory "scripts" [.file "admin_tool.sh" ""], .file "notes" "new",
      .directory "backup" [(SeedEntry.file "notes" "old").withMode "600", .file "plan" ""]] } :
      Lesson) = lesson
  have hready : ((ofLesson lesson ⟨0⟩).toOption.map fun begun =>
      let s := [Action.submit "chmod +x scripts/admin_tool.sh" ⟨1⟩].foldl act begun
      ((s.takesCommands, s.registry.isEnabled "admin", normalize s.home),
        (s.tree.get? (join s.home Admin.toolScript)).map fun tool =>
          (tool.isDirectory, tool.permissions.owner.exec))) =
      some ((true, true, "/home/quest"), some (false, true)) := by
    subst hlesson
    decide +kernel
  have hcopies : ((ofLesson lesson ⟨0⟩).toOption.map fun begun =>
      let s := [Action.submit "chmod +x scripts/admin_tool.sh" ⟨1⟩].foldl act begun
      ((s.tree.node? "/home/quest/notes").map (·.body), s.tree.node? "/home/quest/backup/notes",
        (s.submit "admin backup" ⟨2⟩).1.events.map (·.succeeded))) =
      some (some (.file "new"),
        some ⟨⟨.readWrite, .none, .none⟩, "quest", "quest", ⟨0⟩, .file "old"⟩, [true]) := by
    subst hlesson
    decide +kernel
  obtain ⟨begun, hbegun, hseen⟩ := exists_ofLesson hready
  rw [hbegun] at hcopies
  simp only [Prod.mk.injEq] at hseen
  obtain ⟨⟨hcommands, henabled, hhome⟩, htool⟩ := hseen
  obtain ⟨hnotes, hrest⟩ := Prod.mk.inj (Option.some.inj hcopies)
  obtain ⟨hcopy, hsucceeded⟩ := Prod.mk.inj hrest
  obtain ⟨tool, hfound, hexec⟩ := Option.map_eq_some_iff.mp htool
  obtain ⟨hfile, hexec⟩ := Prod.mk.inj hexec
  obtain ⟨notes, hnotes, hbody⟩ := Option.map_eq_some_iff.mp hnotes
  have hparse : ParsedLine.parse (Text.trim "admin backup") =
      .ok { stages := ["admin" :: "backup" :: []] } := by
    decide +kernel
  obtain ⟨files, hfiles, hbackup⟩ := acts_back_up hbegun
    [.submit "chmod +x scripts/admin_tool.sh" ⟨1⟩] rfl ⟨henabled, tool, hfound, hfile, hexec⟩
  obtain ⟨-, -, hline⟩ := hbackup _ ⟨2⟩ ⟨"admin", [], by decide +kernel, rfl⟩
  obtain ⟨event, hevents, -, hdone⟩ := hline "admin backup" hcommands hparse
  rw [hevents] at hsucceeded
  obtain ⟨-, hbacked⟩ := hdone (List.cons.inj hsucceeded).1
  rw [hhome] at hfiles hbacked
  have hjoin : join "/home/quest" "notes" = "/home/quest/notes" ∧
      join (join "/home/quest" "backup") "notes" = "/home/quest/backup/notes" := by
    decide +kernel
  have hmem : ("notes", "new") ∈ files :=
    (hfiles.mem_iff "notes" "new").mpr ⟨by decide, notes, hjoin.1 ▸ hnotes, hbody⟩
  have hnew := hbacked.copy _ hmem
  rw [hjoin.2, FileTree.fileWith, hcopy] at hnew
  exact ⟨begun, _, files, hbegun, rfl, ⟨henabled, tool, hfound, hfile, hexec⟩, hfiles, hmem,
    hbacked, hnew⟩

end ShellTutor.Session

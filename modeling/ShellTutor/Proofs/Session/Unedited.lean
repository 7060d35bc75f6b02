import ShellTutor.Proofs.Session.Editing
import ShellTutor.Proofs.Text.Lines

/-!
# Saving what was not edited

A file that is opened in the editor and saved again, with nothing typed in between, goes through its
lines and back. Where the command is enabled, a file that can be read is opened for certain, and the
line that saves and closes does both. So what is left of the file is what its lines give back.
-/

namespace ShellTutor

variable {word x : String} {more : List String}

/-- The editor opens a file that can be read with what is read. -/
theorem Files.edit_of_read {env : Environment} {content : String}
    (hread : env.tree.readFrom env.cwd x = .ok content) (more : List String) :
    edit (x :: more) env = .ok (.editor (env.resolve x) content) := by
  have hplace := (env.tree.readFrom_eq env.cwd x).symm.trans hread
  have hcontent := FileTree.fileContent?_of_read (Path.isNormal_resolve env.cwd x) hplace
  obtain ⟨node, hnode, -⟩ := Option.bind_eq_some_iff.mp hcontent
  have hoperand : env.readOperand x = .ok content := hread
  simp only [edit, List.headD_cons, Environment.resolve, hnode, hoperand]
  rfl

namespace Registry

/-- Where `edit` and `nano` are enabled, they open what can be read. -/
theorem run_edit {names : List String} (hword : word.toLower = "edit" ∨ word.toLower = "nano")
    (henabled : (builtin.restrict names).isEnabled word = true) (env : Environment)
    {content : String} (hread : env.tree.readFrom env.cwd x = .ok content) (more : List String) :
    (builtin.restrict names).run { stages := [word :: x :: more] } none env =
      (.ok (.editor (env.resolve x) content), env) := by
  have hargs := stageArgs_edit hword (x :: more)
  have hedit := Files.edit_of_read hread more
  rw [run_singleton]
  rcases hword with h | h
  · have hcmd : (builtin.restrict names).get? word = some .edit := get?_of_isEnabled h henabled
    rw [dispatch_of_checkArity hcmd (by rw [hargs]; rfl), hargs, Command.execute, hedit]
  · have hcmd : (builtin.restrict names).get? word = some .nano := get?_of_isEnabled h henabled
    rw [dispatch_of_checkArity hcmd (by rw [hargs]; rfl), hargs, Command.execute, hedit]

end Registry

namespace Session

variable {s : Session} {line : String} {now : Timestamp}

/-- The line opens the file with what can be read of it, and changes no file. -/
theorem submit_edit {names : List String} (hregistry : s.registry = Registry.builtin.restrict names)
    (hcommands : s.takesCommands = true) (hword : word.toLower = "edit" ∨ word.toLower = "nano")
    (henabled : s.registry.isEnabled word = true)
    (hparse : ParsedLine.parse (Text.trim line) = .ok { stages := [word :: x :: more] })
    {content : String} (hread : s.tree.readFrom s.cwd x = .ok content) (now : Timestamp) :
    (s.submit line now).2.editor? = some (.ofText (Path.resolve s.cwd x) content) ∧
      (s.submit line now).2.tree = s.tree := by
  have hline : Text.trim line ≠ "" := ne_empty_of_parse hparse (by simp)
  rw [hregistry] at henabled
  have hrun := Registry.run_edit hword henabled ((s.logged (Text.trim line)).environment now)
    hread more
  rw [← hregistry] at hrun
  have hafter : (s.logged (Text.trim line)).afterRun { stages := [word :: x :: more] } now =
      { s.logged (Text.trim line) with
        editor? := some (.ofText (Path.resolve s.cwd x) content) } := by
    rw [afterRun, run_eq, show (s.logged (Text.trim line)).registry = s.registry from rfl, hrun]
    rfl
  rw [submit_of_parse hcommands hline hparse, hafter]
  exact ⟨rfl, rfl⟩

/-- Opening a file in the editor and saving it at once. Whatever was done before, a file that can be
read is opened, and `:wq` or `:x` writes it and closes the editor. The file is left without the
line feed that ended it and without the carriage returns before line feeds. So it holds what it held
before just if it had none of these. No other file changes. -/
theorem save_unedited {lesson : Lesson} {begun : Session} {now₀ : Timestamp}
    (hbegun : ofLesson lesson now₀ = .ok begun) (earlier : List Action)
    (hs : earlier.foldl act begun = s) (hcommands : s.takesCommands = true)
    (hword : word.toLower = "edit" ∨ word.toLower = "nano")
    (henabled : s.registry.isEnabled word = true)
    (hparse : ParsedLine.parse (Text.trim line) = .ok { stages := [word :: x :: more] })
    {content path : String} (hpath : Path.resolve s.cwd x = path)
    (hread : s.tree.readFrom s.cwd x = .ok content) {last : String}
    (hlast : Text.trim last ∈ [":wq", ":x"]) {later : Timestamp} {opened saved : Session}
    (hopened : (s.submit line now).2 = opened) (hsaved : (opened.submit last later).2 = saved) :
    opened.inEditor = true ∧ saved.inEditor = false ∧
      saved.tree.fileContent? path =
        some (.ofList (Text.withoutFinalFeed (Text.withoutReturns content.toList))) ∧
      (saved.tree.fileContent? path = some content ↔ Text.GivenBack content.toList) ∧
      ∀ other, Path.normalize other ≠ path →
        saved.tree.fileContent? other = s.tree.fileContent? other := by
  have hbegunSound : begun.Sound := sound_ofLesson hbegun
  have hsound : s.Sound := hs ▸ hbegunSound.acts earlier
  have hregistry : s.registry = Registry.builtin.restrict lesson.commands := by
    obtain ⟨tree, -, hstart⟩ := ofLesson_eq_ok.mp hbegun
    rw [← hs, (hbegunSound.fixed_acts earlier).2, hstart]
  obtain ⟨heditor, htree⟩ := submit_edit hregistry hcommands hword henabled hparse hread now
  rw [hopened, hpath] at heditor
  rw [hopened] at htree
  have hopenedSound : opened.Sound := hopened ▸ hsound.submit line now
  have hanswers := hopenedSound.answers heditor last later
  rw [hsaved] at hanswers
  have hwrites : EditorInput.Writes last := by
    simp only [EditorInput.Writes, List.mem_cons, List.not_mem_nil, or_false] at hlast ⊢
    exact Or.inr (Or.inr hlast)
  obtain ⟨-, hcontent, hothers⟩ := hanswers.write hwrites
  have hstored : saved.tree.fileContent? path = some (Text.unlines (Text.lines content)) := hcontent
  refine ⟨?_, ?_, ?_, ?_, fun other hother => ?_⟩
  · rw [inEditor, heditor]
    rfl
  · rw [inEditor, hanswers.writeCloses hlast]
    rfl
  · rw [hstored, Text.unlines_lines]
  · rw [hstored, Option.some.injEq, Text.unlines_lines_eq_iff]
  · rw [hothers other hother, htree]

theorem save_unedited_of_list :
    ∃ begun opened saved,
      ofLesson { Lesson.blank with tree := [.file "list" "milk\r\neggs\n\n"] } ⟨0⟩ = .ok begun ∧
      (([Action.submit "mkdir a" ⟨1⟩, .submit "cd a" ⟨2⟩].foldl act begun).submit
        "Nano ../list now" ⟨3⟩).2 = opened ∧
      (opened.submit " :x" ⟨4⟩).2 = saved ∧ opened.inEditor = true ∧
      saved.tree.fileContent? "/home/quest/list" = some "milk\neggs\n" := by
  have hrun : ((ofLesson { Lesson.blank with tree := [.file "list" "milk\r\neggs\n\n"] }
      ⟨0⟩).toOption.map fun begun =>
        let s := [Action.submit "mkdir a" ⟨1⟩, .submit "cd a" ⟨2⟩].foldl act begun
        (s.cwd, s.takesCommands, s.registry.isEnabled "Nano", s.tree.readFrom s.cwd "../list")) =
      some ("/home/quest/a", true, true, .ok "milk\r\neggs\n\n") := by
    decide +kernel
  obtain ⟨begun, hbegun, hseen⟩ := exists_ofLesson hrun
  simp only [Prod.mk.injEq] at hseen
  obtain ⟨hcwd, hcommands, henabled, hread⟩ := hseen
  have hpath : Path.resolve ([Action.submit "mkdir a" ⟨1⟩, .submit "cd a" ⟨2⟩].foldl act begun).cwd
      "../list" = "/home/quest/list" := by
    rw [hcwd]
    decide
  have hparse : ParsedLine.parse (Text.trim "Nano ../list now") =
      .ok { stages := [["Nano", "../list", "now"]] } := by
    decide +kernel
  have hlast : Text.trim " :x" ∈ [":wq", ":x"] := by decide
  obtain ⟨hopen, -, hstored, -⟩ := save_unedited hbegun _ rfl hcommands
    (Or.inr (by decide +kernel)) henabled hparse hpath hread hlast rfl rfl
  refine ⟨begun, _, _, hbegun, rfl, rfl, hopen, hstored.trans ?_⟩
  decide +kernel

/-- A line feed that ends the file is lost. -/
theorem save_unedited_drops_feed :
    ∃ s : Session, ofLesson { Lesson.blank with tree := [.file "list" "milk\n"] } ⟨0⟩ = .ok s ∧
      s.tree.readFrom s.cwd "list" = .ok "milk\n" ∧
      (((s.submit "edit list" ⟨1⟩).2.submit ":wq" ⟨2⟩).2.tree.fileContent? "/home/quest/list") =
        some "milk" := by
  have hrun : ((ofLesson { Lesson.blank with tree := [.file "list" "milk\n"] } ⟨0⟩).toOption.map
      fun s => (s.tree.readFrom s.cwd "list",
        ((s.submit "edit list" ⟨1⟩).2.submit ":wq" ⟨2⟩).2.tree.fileContent? "/home/quest/list")) =
      some (.ok "milk\n", some "milk") := by
    decide +kernel
  obtain ⟨s, hstart, hseen⟩ := exists_ofLesson hrun
  exact ⟨s, hstart, Prod.mk.inj hseen⟩

end Session

end ShellTutor

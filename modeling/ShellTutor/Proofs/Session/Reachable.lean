import ShellTutor.Proofs.FileTree.Lasting
import ShellTutor.Proofs.FileTree.Reachable
import ShellTutor.Proofs.Session.Submission

/-!
# Sessions that lines lead to

A session starts with a lesson and goes on with any lines at any times. Along the way its tree stays
connected, pager and editor are never open together, and an open editor can always write its file:
its path is resolved, its directory exists, and no directory has its name. With that, `Submitted`
lists all that a line can do.
-/

namespace ShellTutor

/-- A file can be written under a path: the path is that of a file, or of nothing yet in a directory
that is there. -/
structure FileTree.HasPlace (t : FileTree) (path : String) : Prop where
  below : path ≠ "/"
  parent : t.HasDirectory (Path.parent path)
  free : ¬ t.HasDirectory path

namespace FileTree

variable {t t' : FileTree} {path : String}

theorem isFileName_of_isStep {name : String} (h : Path.IsStep name) : isFileName name = true := by
  obtain ⟨⟨hne, hslash⟩, hdot, hdots⟩ := h
  simp [isFileName, hne, hdot, hdots, hslash]

/-- Where there is a place for a file, writing it succeeds. -/
theorem exists_writeFile (hpath : Path.IsResolved path) (hplace : t.HasPlace path)
    (content : String) (mode : WriteMode) (now : Timestamp) :
    ∃ t', t.writeFile (Path.parent path) (Path.lastName path) content mode now = .ok t' := by
  obtain ⟨dir, name, hdir, hname, rfl⟩ := hpath.exists_join hplace.below
  have hparent : Path.parent (Path.join dir name) = dir :=
    Path.parent_join hdir.isNormal hname.1
  have hlast : Path.lastName (Path.join dir name) = name :=
    Path.lastName_join hdir.isNormal hname.1
  have hthere : t.HasDirectory dir := hparent ▸ hplace.parent
  have hfree : ¬ t.HasDirectory (Path.join (Path.normalize dir) name) := by
    rw [hdir.normalize_eq]
    exact hplace.free
  rw [hparent, hlast]
  exact (exists_writeFile_iff (isFileName_of_isStep hname)
    (hdir.normalize_eq.symm ▸ hthere)).mpr hfree

/-- A write takes no place away, wherever it goes. -/
theorem HasPlace.of_writtenAt {other : String} {now : Timestamp} (hplace : t.HasPlace path)
    (hchange : t.Change t') (h : t.WrittenAt other now t') : t'.HasPlace path :=
  ⟨hplace.below, hchange.hasDirectory hplace.parent, fun hdir =>
    hplace.free (h.hasDirectory_before hdir)⟩

/-- What the editor opens has a place to be written to. -/
theorem hasPlace_of_edit (hc : t.Connected) {cwd operand : String}
    (h : (∃ text, t.readFrom cwd operand = .ok text) ∨
      t.get? (Path.resolve cwd operand) = none ∧
        t.isDirectory (Path.parent (Path.resolve cwd operand)) = true) :
    t.HasPlace (Path.resolve cwd operand) := by
  have hresolved := Path.isResolved_resolve cwd operand
  generalize hpath : Path.resolve cwd operand = path at h hresolved ⊢
  have hparentNormal : Path.normalize (Path.parent path) = Path.parent path :=
    hresolved.isNormal.parent
  rcases h with ⟨text, hread⟩ | ⟨hmissing, hdir⟩
  · rw [readFrom_eq, hpath] at hread
    obtain ⟨node, hnode, hbody, -⟩ := read_eq_ok.mp hread
    rw [hparentNormal] at hnode
    have hfile : node.isDirectory = false := by rw [Node.isDirectory, hbody]
    have hbelow : path ≠ "/" := by
      rintro rfl
      obtain ⟨root, hroot, hisdir⟩ := hc.root
      have hsame : Path.join (Path.parent "/") (Path.lastName "/") = "/" := by decide
      rw [hsame, hroot, Option.some.injEq] at hnode
      rw [hnode, hfile] at hisdir
      cases hisdir
    rw [Path.join_parent_lastName hresolved.isNormal hbelow] at hnode
    refine ⟨hbelow, hc.parent path (mem_keys_of_node? hnode) hbelow, ?_⟩
    rintro ⟨other, hother, hisdir⟩
    rw [hnode, Option.some.injEq] at hother
    rw [← hother, hfile] at hisdir
    cases hisdir
  · rw [get?, hresolved.normalize_eq] at hmissing
    have hnone : ¬ t.HasDirectory path := by
      rintro ⟨node, hnode, -⟩
      rw [hmissing] at hnode
      cases hnode
    refine ⟨?_, ?_, hnone⟩
    · rintro rfl
      exact hnone hc.root
    · exact (isDirectory_iff hresolved.isNormal.parent).mp hdir

end FileTree

namespace Session

variable {s : Session} {line : String} {now : Timestamp}

/-- The sessions that a lesson can come to, by any lines at any times. Further boards may come to
watch at any point. -/
inductive Reachable (lesson : Lesson) : Session → Prop
  | start {s : Session} {now : Timestamp} (h : ofLesson lesson now = .ok s) : Reachable lesson s
  | watch {s : Session} (board : TaskBoard) (h : Reachable lesson s) :
      Reachable lesson (s.watch board)
  | submit {s : Session} (line : String) (now : Timestamp) (h : Reachable lesson s) :
      Reachable lesson (s.submit line now).2

/-- What holds of a session at all times. -/
structure Sound (s : Session) : Prop where
  connected : s.tree.Connected
  apart : s.pager? = none ∨ s.editor? = none
  writable : ∀ e ∈ s.editor?, Path.IsResolved e.path ∧ s.tree.HasPlace e.path

/-- All that a submitted line can do to a session: the events that it reports, and the session
after it. -/
inductive Submitted (s : Session) (line : String) (now : Timestamp) :
    List CommandEvent → Session → Prop
  /-- A key for the pager. -/
  | paged {p : Pager} (hpager : s.pager? = some p) (window : Option Pager) :
      Submitted s line now [] { s with pager? := window }
  /-- A line for the editor that writes nothing. -/
  | edited {e : Editor} (heditor : s.editor? = some e)
      (hline : (EditorInput.parse line).isWrite = false) (buffer : Option Editor)
      (hbuffer : ∀ e' ∈ buffer, e'.path = e.path) :
      Submitted s line now [] { s with editor? := buffer }
  /-- A line for the editor that writes the buffer. -/
  | written {e : Editor} (heditor : s.editor? = some e)
      (hline : (EditorInput.parse line).isWrite = true) {tree : FileTree}
      (htree : s.tree.writeFile (Path.parent e.path) (Path.lastName e.path) e.content .overwrite
        now = .ok tree)
      (buffer : Option Editor) (hbuffer : ∀ e' ∈ buffer, e'.path = e.path) :
      Submitted s line now [.saved e.path s.cwd]
        (({ s with tree, editor? := buffer } : Session).seen (.saved e.path s.cwd))
  /-- A blank line for the commands. -/
  | blank (hcommands : s.takesCommands = true) (hline : Text.trim line = "") :
      Submitted s line now [] s
  /-- A line that cannot be read. -/
  | unread (hcommands : s.takesCommands = true) (hline : Text.trim line ≠ "") {cause : ShellError}
      (hparse : ParsedLine.parse (Text.trim line) = .error cause) :
      Submitted s line now [.ofLine (Text.trim line) none false s.cwd]
        ((s.logged (Text.trim line)).seen (.ofLine (Text.trim line) none false s.cwd))
  /-- A line that was read, and run. -/
  | ran (hcommands : s.takesCommands = true) (hline : Text.trim line ≠ "") {parsed : ParsedLine}
      (hparse : ParsedLine.parse (Text.trim line) = .ok parsed) :
      Submitted s line now [(s.logged (Text.trim line)).runEvent (Text.trim line) parsed now]
        (((s.logged (Text.trim line)).afterRun parsed now).seen
          ((s.logged (Text.trim line)).runEvent (Text.trim line) parsed now))

theorem submit_of_takesCommands (hcommands : s.takesCommands = true) (line : String)
    (now : Timestamp) :
    s.submit line now =
      if Text.trim line = "" then
        (⟨[.echo (s.prompt ++ " " ++ Text.trim line)], []⟩, s)
      else s.command (.echo (s.prompt ++ " " ++ Text.trim line)) (Text.trim line) now := by
  simp only [takesCommands, inPager, inEditor, Bool.and_eq_true, Bool.not_eq_true',
    Option.isSome_eq_false_iff, Option.isNone_iff_eq_none] at hcommands
  rw [submit, hcommands.1, hcommands.2]

/-- A line that can be read is run, and then its event is seen. -/
theorem submit_of_parse (hcommands : s.takesCommands = true) (hline : Text.trim line ≠ "")
    {parsed : ParsedLine} (hparse : ParsedLine.parse (Text.trim line) = .ok parsed)
    (now : Timestamp) :
    (s.submit line now).2 = ((s.logged (Text.trim line)).afterRun parsed now).seen
      ((s.logged (Text.trim line)).runEvent (Text.trim line) parsed now) := by
  obtain ⟨lines, hcommand⟩ :=
    command_of_parse hparse s (.echo (s.prompt ++ " " ++ Text.trim line)) now
  rw [submit_of_takesCommands hcommands, if_neg hline, hcommand]
  exact (report_eq _ lines _).2

/-- What has stages is more than nothing. -/
theorem ne_empty_of_parse {text : String} {parsed : ParsedLine}
    (hparse : ParsedLine.parse text = .ok parsed) (hstages : parsed.stages ≠ []) : text ≠ "" := by
  rintro rfl
  have hnothing : ParsedLine.parse "" = .ok {} := by decide +kernel
  rw [hnothing] at hparse
  cases hparse
  exact hstages rfl

theorem takesCommands_iff : s.takesCommands = true ↔ s.pager? = none ∧ s.editor? = none := by
  simp [takesCommands, inPager, inEditor]

/-- The submissions of a session that is sound. -/
theorem Sound.submitted (h : s.Sound) (line : String) (now : Timestamp) :
    s.Submitted line now (s.submit line now).1.events (s.submit line now).2 := by
  cases hpager : s.pager? with
  | some p =>
    have hsubmit : s.submit line now = s.page p (.parse line) := by rw [submit, hpager]
    rw [hsubmit]
    exact .paged hpager _
  | none =>
    cases heditor : s.editor? with
    | some e =>
      have hsubmit : s.submit line now = s.edit e now (.parse line) := by
        rw [submit, hpager, heditor]
      rw [hsubmit]
      cases hline : (EditorInput.parse line).isWrite with
      | false =>
        obtain ⟨hevents, buffer, hbuffer, hnext⟩ := edit_of_not_isWrite heditor hline now
        rw [hevents, hnext]
        exact .edited heditor hline buffer hbuffer
      | true =>
        obtain ⟨more, buffer, hbuffer, hwrite⟩ := edit_of_isWrite s e now hline
        obtain ⟨hresolved, hplace⟩ := h.writable e heditor
        obtain ⟨tree, htree⟩ := FileTree.exists_writeFile hresolved hplace e.content .overwrite now
        obtain ⟨hevents, hnext⟩ := writeBuffer_eq s hresolved more buffer htree
        rw [hwrite, hevents, hnext]
        exact .written heditor hline htree buffer hbuffer
    | none =>
      have hcommands : s.takesCommands = true := takesCommands_iff.mpr ⟨hpager, heditor⟩
      rw [submit_of_takesCommands hcommands]
      split
      · rename_i hline
        exact .blank hcommands hline
      · rename_i hline
        obtain ⟨lines, event, middle, hcommand, hcase⟩ :=
          command_cases s (.echo (s.prompt ++ " " ++ Text.trim line)) (Text.trim line) now
        obtain ⟨hevents, hnext⟩ := report_eq middle lines event
        rw [hcommand, hevents, hnext]
        rcases hcase with ⟨cause, hparse, rfl, rfl⟩ | ⟨parsed, hparse, rfl, rfl⟩
        · exact .unread hcommands hline hparse
        · exact .ran hcommands hline hparse

/-- Home and the enabled commands are fixed for a session. -/
theorem Submitted.fixed {events : List CommandEvent} {next : Session}
    (h : s.Submitted line now events next) :
    next.home = s.home ∧ next.registry = s.registry := by
  cases h with
  | @ran _ _ parsed _ =>
    have hframe := afterRun_frame (s.logged (Text.trim line)) parsed now
    exact ⟨by rw [seen, hframe]; rfl, by rw [seen, hframe]; rfl⟩
  | _ => exact ⟨rfl, rfl⟩

/-- Running a line changes the tree by single changes only. -/
theorem changes_afterRun (s : Session) (parsed : ParsedLine) (now : Timestamp) :
    FileTree.Changes s.tree (s.afterRun parsed now).tree := by
  rw [afterRun_frame]
  rcases s.registry.run_cases parsed none (s.environment now) with
    ⟨tree, hchanges, hafter⟩ | ⟨vars, hafter⟩ | ⟨-, target, -, hrun⟩
  · rw [hafter]
    exact hchanges
  · rw [hafter]
    exact .refl
  · rw [hrun]
    exact .refl

theorem Submitted.changes {events : List CommandEvent} {next : Session}
    (h : s.Submitted line now events next) : FileTree.Changes s.tree next.tree := by
  cases h with
  | paged => exact .refl
  | edited => exact .refl
  | written _ _ htree => exact .single (FileTree.change_of_writeFile htree)
  | blank => exact .refl
  | unread => exact .refl
  | @ran _ _ parsed _ => exact changes_afterRun (s.logged (Text.trim line)) parsed now

/-- A line that runs opens at most one of pager and editor, and the editor only on a file that can
be written. -/
theorem sound_afterRun (h : s.Sound) (hcommands : s.takesCommands = true) (parsed : ParsedLine)
    (now : Timestamp) : (s.afterRun parsed now).Sound := by
  obtain ⟨hpager, heditor⟩ := takesCommands_iff.mp hcommands
  have hconnected := h.connected.changes (changes_afterRun s parsed now)
  rw [afterRun] at hconnected ⊢
  cases hout : (s.run parsed now).1 with
  | error e =>
    simp only [hout] at hconnected ⊢
    exact ⟨hconnected, Or.inr heditor, by rw [run_eq]; simp [heditor]⟩
  | ok output =>
    simp only [hout] at hconnected ⊢
    rcases present_cases (s.run parsed now).2 output with hsame | ⟨window, hsame⟩ |
      ⟨path, content, rfl, hsame⟩
    · rw [hsame] at hconnected ⊢
      exact ⟨hconnected, Or.inr heditor, by rw [run_eq]; simp [heditor]⟩
    · rw [hsame] at hconnected ⊢
      exact ⟨hconnected, Or.inr heditor, by rw [run_eq]; simp [heditor]⟩
    · rw [hsame] at hconnected ⊢
      refine ⟨hconnected, Or.inl hpager, ?_⟩
      rw [run_eq] at hout
      obtain ⟨⟨args, hedit⟩, henv⟩ := Registry.edit_of_run hout
      obtain ⟨rfl, hplace⟩ := Files.edit_eq_ok hedit
      rintro e he
      rw [Option.mem_some_iff] at he
      subst he
      refine ⟨Path.isResolved_resolve _ _, ?_⟩
      rw [run_eq]
      simp only [henv]
      exact FileTree.hasPlace_of_edit h.connected hplace

theorem Sound.submit (h : s.Sound) (line : String) (now : Timestamp) :
    (s.submit line now).2.Sound := by
  have hsubmitted := h.submitted line now
  have hconnected := h.connected.changes hsubmitted.changes
  generalize (s.submit line now).1.events = events at hsubmitted
  generalize (s.submit line now).2 = next at hsubmitted hconnected ⊢
  cases hsubmitted with
  | @paged p hpager window =>
    have heditor : s.editor? = none := h.apart.resolve_left (by simp [hpager])
    exact ⟨hconnected, Or.inr heditor, h.writable⟩
  | @edited e heditor hline buffer hbuffer =>
    have hpager : s.pager? = none := h.apart.resolve_right (by simp [heditor])
    refine ⟨hconnected, Or.inl hpager, ?_⟩
    intro e' he'
    rw [hbuffer e' he']
    exact h.writable e heditor
  | @written e heditor hline tree htree buffer hbuffer =>
    have hpager : s.pager? = none := h.apart.resolve_right (by simp [heditor])
    refine ⟨hconnected, Or.inl hpager, ?_⟩
    intro e' he'
    rw [hbuffer e' he']
    obtain ⟨hresolved, hplace⟩ := h.writable e heditor
    exact ⟨hresolved, hplace.of_writtenAt (FileTree.change_of_writeFile htree)
      (FileTree.writtenAt_of_writeFile hresolved.isNormal htree)⟩
  | blank => exact h
  | unread => exact ⟨hconnected, h.apart, h.writable⟩
  | @ran hcommands hline parsed hparse =>
    have hlogged : (s.logged (Text.trim line)).Sound := ⟨h.connected, h.apart, h.writable⟩
    obtain ⟨hrun, hapart, hwritable⟩ := sound_afterRun hlogged hcommands parsed now
    exact ⟨hconnected, hapart, hwritable⟩

theorem ofLesson_eq_ok {lesson : Lesson} {s : Session} :
    ofLesson lesson now = .ok s ↔
      ∃ tree, FileTree.ofSeed lesson.home lesson.user lesson.group lesson.tree now = .ok tree ∧
        s = { tree
              cwd := lesson.home
              home := lesson.home
              user := lesson.user
              hostname := lesson.hostname
              pageSize := lesson.pageSize
              registry := Registry.builtin.restrict lesson.commands
              board := .ofRules lesson.tasks } := by
  rw [ofLesson, Outcome.bind_eq_ok]
  simp only [Outcome.pure_eq_ok, Except.ok.injEq, eq_comm (b := s)]

/-- A lesson of which something can be seen in its first session has such a session. -/
theorem exists_ofLesson {lesson : Lesson} {β : Type} {view : Session → β} {seen : β}
    (h : (ofLesson lesson now).toOption.map view = some seen) :
    ∃ s, ofLesson lesson now = .ok s ∧ view s = seen := by
  cases hstart : ofLesson lesson now with
  | error e =>
    rw [hstart] at h
    cases h
  | ok s =>
    rw [hstart] at h
    exact ⟨s, rfl, Option.some.inj h⟩

theorem exists_start {lesson : Lesson} {β : Type} {view : Session → β} {seen : β}
    (h : (ofLesson lesson now).toOption.map view = some seen) :
    ∃ s, Reachable lesson s ∧ view s = seen := by
  obtain ⟨s, hstart, hseen⟩ := exists_ofLesson h
  exact ⟨s, .start hstart, hseen⟩

theorem sound_of_reachable {lesson : Lesson} (h : Reachable lesson s) : s.Sound := by
  induction h with
  | start h =>
    obtain ⟨tree, hseed, rfl⟩ := ofLesson_eq_ok.mp h
    exact ⟨(FileTree.connected_empty _ _ _).changes (FileTree.changes_ofSeed hseed), Or.inl rfl,
      by simp⟩
  | watch board _ ih => exact ⟨ih.connected, ih.apart, ih.writable⟩
  | submit line now _ ih => exact ih.submit line now

/-- The commands of a session are those that its lesson allows. -/
theorem registry_of_reachable {lesson : Lesson} (h : Reachable lesson s) :
    s.registry = Registry.builtin.restrict lesson.commands := by
  induction h with
  | start h =>
    obtain ⟨tree, -, rfl⟩ := ofLesson_eq_ok.mp h
    rfl
  | watch board _ ih => exact ih
  | submit line now h ih => exact ((sound_of_reachable h).submitted line now).fixed.2.trans ih

end Session

end ShellTutor

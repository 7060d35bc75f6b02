import ShellTutor.Proofs.Command.Effect
import ShellTutor.Proofs.FileTree.Locality
import ShellTutor.Session.Submit

/-!
# What a submitted line can do

A line goes to the pager, the editor or the commands, and each of them has its own part of the
session. Here each kind of submission is opened up once: which fields of the session it leaves as
they are, and which events its boards get to see.
-/

namespace ShellTutor

/-- The lines for the editor that ask it to write its file. -/
def EditorInput.isWrite : EditorInput → Bool
  | .write | .writeQuit => true
  | _ => false

namespace Session

variable {s : Session} {now : Timestamp}

/-- A board that took note of events one after the other, on the same tree. -/
def afterEvents (tree : FileTree) (events : List CommandEvent) (board : TaskBoard) : TaskBoard :=
  events.foldl (fun board event => (board.observe event tree).2) board

/-- The session once all of its boards took note of an event. -/
def seen (s : Session) (event : CommandEvent) : Session :=
  { s with
    board := afterEvents s.tree [event] s.board
    watchers := s.watchers.map (afterEvents s.tree [event]) }

/-- A report is seen by every board and changes nothing else. -/
theorem report_eq (s : Session) (lines : List OutputLine) (event : CommandEvent) :
    (s.report lines event).1.events = [event] ∧ (s.report lines event).2 = s.seen event := by
  refine ⟨rfl, ?_⟩
  simp only [report, List.map_map]
  rfl

theorem path_deleteLast (e : Editor) : e.deleteLast.2.path = e.path := by
  rw [Editor.deleteLast]
  split <;> rfl

/-- Unless it asks for a write, a line for the editor changes the buffer or closes it. -/
theorem edit_of_not_isWrite {e : Editor} (he : s.editor? = some e) {input : EditorInput}
    (h : input.isWrite = false) (now : Timestamp) :
    (s.edit e now input).1.events = [] ∧
      ∃ buffer, (∀ e' ∈ buffer, e'.path = e.path) ∧
        (s.edit e now input).2 = { s with editor? := buffer } := by
  have hsame : s = { s with editor? := some e } := by rw [← he]
  cases input with
  | write => cases h
  | writeQuit => cases h
  | text line => exact ⟨rfl, some (e.push line), by simp [Editor.push], rfl⟩
  | «show» => exact ⟨rfl, some e, by simp, hsame⟩
  | deleteLast => exact ⟨rfl, some e.deleteLast.2, by simp [path_deleteLast], rfl⟩
  | forceQuit => exact ⟨rfl, none, by simp, rfl⟩
  | quit =>
    rw [edit]
    split
    · exact ⟨rfl, some e, by simp, hsame⟩
    · exact ⟨rfl, none, by simp, rfl⟩

theorem edit_of_isWrite (s : Session) (e : Editor) (now : Timestamp) {input : EditorInput}
    (h : input.isWrite = true) :
    ∃ more buffer, (∀ e' ∈ buffer, e'.path = e.path) ∧
      s.edit e now input = s.writeBuffer e more buffer now := by
  cases input with
  | write => exact ⟨[], some e.markSaved, by simp [Editor.markSaved], rfl⟩
  | writeQuit => exact ⟨[editorClosed], none, by simp, rfl⟩
  | _ => cases h

theorem saveFile_eq (s : Session) {path : String} (hpath : Path.IsResolved path)
    (content : String) (now : Timestamp) :
    s.saveFile path content now =
      match s.tree.writeFile (Path.parent path) (Path.lastName path) content .overwrite now with
      | .error e => .error e
      | .ok tree => .ok (({ s with tree }).report [.notice ("saved " ++ Path.lastName path)]
          (.saved path s.cwd)) := by
  unfold saveFile
  cases hwrite : s.tree.writeFile (Path.parent path) (Path.lastName path) content .overwrite now <;>
    simp [hpath.resolve_eq, Path.splitParent_eq, hwrite]

/-- Writing the buffer of a file with a resolved path writes that file and reports it. -/
theorem writeBuffer_eq (s : Session) {e : Editor} (hpath : Path.IsResolved e.path)
    (more : List OutputLine) (buffer : Option Editor) {tree : FileTree}
    (hwrite : s.tree.writeFile (Path.parent e.path) (Path.lastName e.path) e.content .overwrite
      now = .ok tree) :
    (s.writeBuffer e more buffer now).1.events = [.saved e.path s.cwd] ∧
      (s.writeBuffer e more buffer now).2 =
        ({ s with tree, editor? := buffer } : Session).seen (.saved e.path s.cwd) := by
  have hreport := report_eq { s with tree } [.notice ("saved " ++ Path.lastName e.path)]
    (.saved e.path s.cwd)
  unfold writeBuffer
  rw [saveFile_eq s hpath, hwrite]
  simp only
  generalize ({ s with tree } : Session).report _ _ = reported at hreport ⊢
  obtain ⟨hevents, hnext⟩ := hreport
  exact ⟨hevents, by rw [hnext]; rfl⟩

/-- The session once a line stands in its history. -/
def logged (s : Session) (line : String) : Session :=
  { s with history := s.history ++ [line] }

/-- The session that a line which was read leaves, before it is reported. -/
def afterRun (s : Session) (parsed : ParsedLine) (now : Timestamp) : Session :=
  match (s.run parsed now).1 with
  | .error _ => (s.run parsed now).2
  | .ok output => ((s.run parsed now).2.present output).2

/-- What is reported of a line that was read. -/
def runEvent (s : Session) (line : String) (parsed : ParsedLine) (now : Timestamp) :
    CommandEvent :=
  (CommandEvent.ofLine line parsed (s.run parsed now).1.isOk (s.run parsed now).2.cwd).withTarget
    s.cwd

theorem command_of_parse_error {line : String} {e : ShellError}
    (h : ParsedLine.parse line = .error e) (s : Session) (echo : OutputLine) (now : Timestamp) :
    s.command echo line now =
      (s.logged line).report [echo, .error ("bash: " ++ e.message)]
        (.ofLine line none false s.cwd) := by
  rw [command, h]
  rfl

/-- A line that was read and fails is reported under its echo and the lines that tell why. -/
theorem command_of_run_error {line : String} {parsed : ParsedLine}
    (h : ParsedLine.parse line = .ok parsed) (s : Session) (echo : OutputLine) {now : Timestamp}
    {cause : ShellError} (hrun : ((s.logged line).run parsed now).1 = .error cause) :
    s.command echo line now =
      ((s.logged line).afterRun parsed now).report (echo :: failureLines parsed cause)
        ((s.logged line).runEvent line parsed now) := by
  rw [afterRun, runEvent, hrun, command, h]
  simp only [logged] at hrun ⊢
  generalize ({ s with history := s.history ++ [line] } : Session).run parsed now = ran at hrun ⊢
  obtain ⟨result, next⟩ := ran
  obtain rfl : result = .error cause := hrun
  rfl

/-- A line that was read and succeeds is reported under its echo and what it gave back. -/
theorem command_of_run_ok {line : String} {parsed : ParsedLine}
    (h : ParsedLine.parse line = .ok parsed) (s : Session) (echo : OutputLine) {now : Timestamp}
    {output : CommandOutput} (hrun : ((s.logged line).run parsed now).1 = .ok output) :
    s.command echo line now =
      ((s.logged line).afterRun parsed now).report
        (echo :: (((s.logged line).run parsed now).2.present output).1)
        ((s.logged line).runEvent line parsed now) := by
  rw [afterRun, runEvent, hrun, command, h]
  simp only [logged] at hrun ⊢
  generalize ({ s with history := s.history ++ [line] } : Session).run parsed now = ran at hrun ⊢
  obtain ⟨result, next⟩ := ran
  obtain rfl : result = .ok output := hrun
  rfl

theorem command_of_parse {line : String} {parsed : ParsedLine}
    (h : ParsedLine.parse line = .ok parsed) (s : Session) (echo : OutputLine)
    (now : Timestamp) :
    ∃ lines, s.command echo line now =
      ((s.logged line).afterRun parsed now).report lines
        ((s.logged line).runEvent line parsed now) := by
  cases hrun : ((s.logged line).run parsed now).1 with
  | error cause => exact ⟨_, command_of_run_error h s echo hrun⟩
  | ok output => exact ⟨_, command_of_run_ok h s echo hrun⟩

/-- A line for the commands is logged, run if it can be read, and then reported. -/
theorem command_cases (s : Session) (echo : OutputLine) (line : String) (now : Timestamp) :
    ∃ lines event middle, s.command echo line now = middle.report lines event ∧
      ((∃ e, ParsedLine.parse line = .error e ∧ middle = s.logged line ∧
          event = .ofLine line none false s.cwd) ∨
        ∃ parsed, ParsedLine.parse line = .ok parsed ∧
          middle = (s.logged line).afterRun parsed now ∧
          event = (s.logged line).runEvent line parsed now) := by
  cases hparse : ParsedLine.parse line with
  | error e =>
    exact ⟨_, _, _, command_of_parse_error hparse s echo now, Or.inl ⟨e, rfl, rfl, rfl⟩⟩
  | ok parsed =>
    obtain ⟨lines, h⟩ := command_of_parse hparse s echo now
    exact ⟨lines, _, _, h, Or.inr ⟨parsed, rfl, rfl, rfl⟩⟩

/-- What a command gave back opens nothing, the pager or the editor. -/
theorem present_cases (s : Session) (output : CommandOutput) :
    (s.present output).2 = s ∨
      (∃ window, (s.present output).2 = { s with pager? := some window }) ∨
      ∃ path content, output = .editor path content ∧
        (s.present output).2 = { s with editor? := some (.ofText path content) } := by
  cases output with
  | pager title content => exact Or.inr (Or.inl ⟨_, rfl⟩)
  | editor path content => exact Or.inr (Or.inr ⟨path, content, rfl, rfl⟩)
  | _ => exact Or.inl rfl

theorem run_eq (s : Session) (parsed : ParsedLine) (now : Timestamp) :
    s.run parsed now =
      ((s.registry.run parsed none (s.environment now)).1,
        { s with
          cwd := (s.registry.run parsed none (s.environment now)).2.cwd
          tree := (s.registry.run parsed none (s.environment now)).2.tree
          vars := (s.registry.run parsed none (s.environment now)).2.vars }) :=
  rfl

/-- Running a line works on the place, the tree and the variables, and may open the pager or the
editor. -/
theorem afterRun_frame (s : Session) (parsed : ParsedLine) (now : Timestamp) :
    s.afterRun parsed now =
      { s with
        cwd := (s.registry.run parsed none (s.environment now)).2.cwd
        tree := (s.registry.run parsed none (s.environment now)).2.tree
        vars := (s.registry.run parsed none (s.environment now)).2.vars
        pager? := (s.afterRun parsed now).pager?
        editor? := (s.afterRun parsed now).editor? } := by
  rw [afterRun, run_eq]
  simp only
  split
  · rfl
  · rename_i output hrun
    generalize hnext : ({ s with
      cwd := (s.registry.run parsed none (s.environment now)).2.cwd
      tree := (s.registry.run parsed none (s.environment now)).2.tree
      vars := (s.registry.run parsed none (s.environment now)).2.vars } : Session) = next
    rcases present_cases next output with h | ⟨window, h⟩ | ⟨path, content, -, h⟩ <;>
      rw [h, ← hnext]

end Session

end ShellTutor

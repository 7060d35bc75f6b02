import ShellTutor.Proofs.Command.Spelling
import ShellTutor.Proofs.Session.Actions
import ShellTutor.Proofs.Session.Failure
import ShellTutor.Proofs.Session.WorkingDirectory

/-!
# Sessions and the spelling of home

A lesson may spell its home directory in more than one way, and its session starts there. Another
session, for the same lesson with home in normal form, goes on beside it: whatever is done with the
two, they stay in the same place and keep the same tree, and each line fails in both or in none.
Their task boards may differ, since a task may ask for a working directory by its text.
-/

namespace ShellTutor

open Outcome (Paired)

/-- Two replies that tell of the same failures. -/
structure Reply.Agrees (reply reply' : Reply) : Prop where
  /-- The same errors are shown, -/
  errors : reply'.lines.filter (·.kind == .error) = reply.lines.filter (·.kind == .error)
  /-- and as many events are reported, each a success in both or in none. -/
  succeeded : reply'.events.map (·.succeeded) = reply.events.map (·.succeeded)

theorem OutputLine.filter_of_isPlain {lines : List OutputLine} (h : ∀ line ∈ lines, line.IsPlain) :
    lines.filter (·.kind == .error) = [] := by
  refine List.filter_eq_nil_iff.mpr fun line hline => ?_
  simpa using (h line hline).2

namespace Session

variable {s s' : Session} {now : Timestamp}

/-- One session is another with its directories in normal form. Of the task boards, nothing is
said. -/
def Respelled (s s' : Session) : Prop :=
  ∃ board watchers,
    s' = { s with cwd := Path.normalize s.cwd, home := Path.normalize s.home, board, watchers }

theorem agrees_report {lines lines' : List OutputLine} {event event' : CommandEvent}
    (hlines : lines'.filter (·.kind == .error) = lines.filter (·.kind == .error))
    (hevent : event'.succeeded = event.succeeded) :
    (s.report lines event).1.Agrees (s'.report lines' event').1 := by
  obtain ⟨more, hmore, hplain⟩ := exists_lines_report s lines event
  obtain ⟨more', hmore', hplain'⟩ := exists_lines_report s' lines' event'
  constructor
  case errors =>
    rw [hmore, hmore', List.filter_append, List.filter_append, hlines,
      OutputLine.filter_of_isPlain hplain, OutputLine.filter_of_isPlain hplain']
  case succeeded =>
    rw [(report_eq s lines event).1, (report_eq s' lines' event').1]
    simp [hevent]

/-- Below its echo, a line that succeeds shows no error. -/
theorem filter_present (s : Session) (prompt : String) (output : CommandOutput) :
    (OutputLine.echo prompt :: (s.present output).1).filter (·.kind == .error) = [] := by
  rw [List.filter_cons_of_neg (by simp [OutputLine.echo])]
  exact OutputLine.filter_of_isPlain fun _ => isPlain_of_mem_present

namespace Respelled

variable (h : s.Respelled s')
include h

theorem environment (now : Timestamp) : s'.environment now = (s.environment now).normal := by
  obtain ⟨board, watchers, rfl⟩ := h
  rfl

theorem registry : s'.registry = s.registry := by
  obtain ⟨board, watchers, rfl⟩ := h
  rfl

theorem logged (line : String) : (s.logged line).Respelled (s'.logged line) := by
  obtain ⟨board, watchers, rfl⟩ := h
  exact ⟨board, watchers, rfl⟩

theorem seen (event event' : CommandEvent) : (s.seen event).Respelled (s'.seen event') := by
  obtain ⟨board, watchers, rfl⟩ := h
  exact ⟨_, _, rfl⟩

theorem report (lines lines' : List OutputLine) (event event' : CommandEvent) :
    (s.report lines event).2.Respelled (s'.report lines' event').2 := by
  rw [(report_eq s lines event).2, (report_eq s' lines' event').2]
  exact h.seen event event'

theorem withTree (tree : FileTree) :
    ({ s with tree } : Session).Respelled { s' with tree } := by
  obtain ⟨board, watchers, rfl⟩ := h
  exact ⟨board, watchers, rfl⟩

theorem withPager (pager? : Option Pager) :
    ({ s with pager? } : Session).Respelled { s' with pager? } := by
  obtain ⟨board, watchers, rfl⟩ := h
  exact ⟨board, watchers, rfl⟩

theorem withEditor (editor? : Option Editor) :
    ({ s with editor? } : Session).Respelled { s' with editor? } := by
  obtain ⟨board, watchers, rfl⟩ := h
  exact ⟨board, watchers, rfl⟩

/-- What was given back opens the same in both. -/
theorem present {output output' : CommandOutput} (hlike : output.Like output') :
    (s.present output).2.Respelled (s'.present output').2 := by
  obtain ⟨board, watchers, rfl⟩ := h
  cases hlike with
  | text => exact ⟨board, watchers, rfl⟩
  | same => cases output <;> exact ⟨board, watchers, rfl⟩

theorem run (hhome : Path.StartsWithParent s.home) (parsed : ParsedLine) (now : Timestamp) :
    Paired CommandOutput.Like (s.run parsed now).1 (s'.run parsed now).1 ∧
      (s.run parsed now).2.Respelled (s'.run parsed now).2 := by
  have hrun : Outcome.Respelled (s.registry.run parsed none (s.environment now))
      (s.registry.run parsed none (s.environment now).normal) :=
    s.registry.respelled_run parsed none hhome
  rw [run_eq, run_eq, h.registry, h.environment, hrun.left]
  obtain ⟨board, watchers, rfl⟩ := h
  exact ⟨hrun.answer, board, watchers, rfl⟩

/-- A line is read, run and reported in both. -/
theorem command (hhome : Path.StartsWithParent s.home) (prompt prompt' line : String)
    (now : Timestamp) :
    (s.command (.echo prompt) line now).1.Agrees (s'.command (.echo prompt') line now).1 ∧
      (s.command (.echo prompt) line now).2.Respelled (s'.command (.echo prompt') line now).2 := by
  have hlogged := h.logged line
  cases hparse : ParsedLine.parse line with
  | error e =>
    rw [command_of_parse_error hparse, command_of_parse_error hparse]
    exact ⟨agrees_report rfl rfl, hlogged.report _ _ _ _⟩
  | ok parsed =>
    obtain ⟨hanswer, hnext⟩ := hlogged.run hhome parsed now
    generalize hout : ((s.logged line).run parsed now).1 = out at hanswer
    generalize hout' : ((s'.logged line).run parsed now).1 = out' at hanswer
    have hevent : out'.isOk = out.isOk →
        ((s'.logged line).runEvent line parsed now).succeeded =
          ((s.logged line).runEvent line parsed now).succeeded := by
      rw [← hout, ← hout']
      exact id
    cases hanswer with
    | error e =>
      rw [command_of_run_error hparse s _ hout, command_of_run_error hparse s' _ hout']
      refine ⟨agrees_report rfl (hevent rfl), Respelled.report ?_ _ _ _ _⟩
      rw [afterRun, afterRun, hout, hout']
      exact hnext
    | ok hlike =>
      rw [command_of_run_ok hparse s _ hout, command_of_run_ok hparse s' _ hout']
      refine ⟨agrees_report ?_ (hevent rfl), Respelled.report ?_ _ _ _ _⟩
      · rw [filter_present, filter_present]
      · rw [afterRun, afterRun, hout, hout']
        exact hnext.present hlike

/-- A file is saved in both, or in none for the same cause. -/
theorem saveFile (name content : String) (now : Timestamp) :
    Paired (fun saved saved' => saved.1.Agrees saved'.1 ∧ saved.2.Respelled saved'.2)
      (s.saveFile name content now) (s'.saveFile name content now) := by
  have hpath : Path.resolve s'.cwd name = Path.resolve s.cwd name := by
    obtain ⟨board, watchers, rfl⟩ := h
    exact Path.resolve_normalize s.cwd name
  have htree : s'.tree = s.tree := by
    obtain ⟨board, watchers, rfl⟩ := h
    rfl
  unfold Session.saveFile
  rw [hpath, htree]
  generalize Path.resolve s.cwd name = path
  simp only
  generalize s.tree.writeFile _ _ content .overwrite now = written
  cases written with
  | error e => exact .error e
  | ok tree => exact .ok ⟨agrees_report rfl rfl, (h.withTree tree).report _ _ _ _⟩

theorem writeBuffer (e : Editor) (more : List OutputLine) (after : Option Editor)
    (now : Timestamp) :
    (s.writeBuffer e more after now).1.Agrees (s'.writeBuffer e more after now).1 ∧
      (s.writeBuffer e more after now).2.Respelled (s'.writeBuffer e more after now).2 := by
  have hsaved := h.saveFile e.path e.content now
  unfold Session.writeBuffer
  generalize s.saveFile e.path e.content now = saved at hsaved ⊢
  generalize s'.saveFile e.path e.content now = saved' at hsaved ⊢
  cases hsaved with
  | error cause => exact ⟨⟨rfl, rfl⟩, h⟩
  | ok hsaved =>
    obtain ⟨hagrees, hnext⟩ := hsaved
    refine ⟨⟨?_, hagrees.succeeded⟩, hnext.withEditor after⟩
    simp only [List.filter_append, hagrees.errors]

/-- A line for the editor does the same in both. -/
theorem edit (e : Editor) (now : Timestamp) (input : EditorInput) :
    (s.edit e now input).1.Agrees (s'.edit e now input).1 ∧
      (s.edit e now input).2.Respelled (s'.edit e now input).2 := by
  cases input with
  | text line => exact ⟨⟨rfl, rfl⟩, h.withEditor _⟩
  | «show» => exact ⟨⟨rfl, rfl⟩, h⟩
  | deleteLast => exact ⟨⟨rfl, rfl⟩, h.withEditor _⟩
  | forceQuit => exact ⟨⟨rfl, rfl⟩, h.withEditor _⟩
  | quit =>
    rw [Session.edit, Session.edit]
    split
    · exact ⟨⟨rfl, rfl⟩, h⟩
    · exact ⟨⟨rfl, rfl⟩, h.withEditor _⟩
  | write => exact h.writeBuffer e [] (some e.markSaved) now
  | writeQuit => exact h.writeBuffer e [editorClosed] none now

/-- Whatever takes the line, it does the same in both. -/
theorem submit (hhome : Path.StartsWithParent s.home) (line : String) (now : Timestamp) :
    (s.submit line now).1.Agrees (s'.submit line now).1 ∧
      (s.submit line now).2.Respelled (s'.submit line now).2 := by
  have hopen : s'.pager? = s.pager? ∧ s'.editor? = s.editor? := by
    obtain ⟨board, watchers, rfl⟩ := h
    exact ⟨rfl, rfl⟩
  rw [Session.submit, Session.submit, hopen.1, hopen.2]
  split
  · rename_i p _ _
    exact ⟨⟨rfl, rfl⟩, h.withPager _⟩
  · rename_i e _ _
    exact h.edit e now _
  · simp only
    split
    · exact ⟨⟨rfl, rfl⟩, h⟩
    · exact h.command hhome _ _ _ now

theorem afterSave (name content : String) (now : Timestamp) :
    (s.afterSave name content now).Respelled (s'.afterSave name content now) := by
  have hsaved := h.saveFile name content now
  unfold Session.afterSave
  generalize s.saveFile name content now = saved at hsaved ⊢
  generalize s'.saveFile name content now = saved' at hsaved ⊢
  cases hsaved with
  | error e => exact h
  | ok hsaved => exact hsaved.2

theorem act (hhome : Path.StartsWithParent s.home) (action : Action) :
    (s.act action).Respelled (s'.act action) := by
  cases action with
  | submit line now => exact (h.submit hhome line now).2
  | watch board =>
    obtain ⟨board', watchers, rfl⟩ := h
    exact ⟨board', watchers ++ [board], rfl⟩
  | resetTasks =>
    obtain ⟨board, watchers, rfl⟩ := h
    exact ⟨board.reset, watchers, rfl⟩
  | save name content now => exact h.afterSave name content now

end Respelled

theorem Respelled.acts (h : s.Respelled s') (hsound : s.Sound)
    (hhome : Path.StartsWithParent s.home) (actions : List Action) :
    (actions.foldl Session.act s).Respelled (actions.foldl Session.act s') ∧
      Path.StartsWithParent (actions.foldl Session.act s).home := by
  induction actions generalizing s s' with
  | nil => exact ⟨h, hhome⟩
  | cons action rest ih =>
    exact ih (h.act hhome action) (hsound.act action) ((hsound.fixed_act action).1 ▸ hhome)

/-- A lesson starts whether or not its home is spelled in normal form. -/
theorem exists_respelled_start {lesson : Lesson} (h : ofLesson lesson now = .ok s) :
    ∃ s', ofLesson { lesson with home := Path.normalize lesson.home } now = .ok s' ∧
      s.Respelled s' := by
  obtain ⟨tree, hseed, rfl⟩ := ofLesson_eq_ok.mp h
  refine ⟨_, ofLesson_eq_ok.mpr ⟨tree, ?_, rfl⟩, ⟨_, _, rfl⟩⟩
  rw [FileTree.ofSeed] at hseed ⊢
  rw [Path.normalize_normalize]
  exact hseed

/-- The spelling of home does not matter where it names neither `.` nor `..` and starts with the
directory it lies in. Beside the session of such a lesson goes that of the same lesson with home
resolved: whatever is done with both, they are in the same directory and have the same tree, and
each line fails for the same reason in both, or succeeds in both. -/
theorem submit_respelled {lesson : Lesson}
    (hplain : ∀ c ∈ Path.components lesson.home, c ≠ "." ∧ c ≠ "..")
    (hparent : Path.StartsWithParent lesson.home) (hstart : ofLesson lesson now = .ok s) :
    ∃ s', ofLesson { lesson with home := Path.resolve "/" lesson.home } now = .ok s' ∧
      ∀ actions : List Action,
        Path.resolve "/" (actions.foldl act s').cwd = Path.resolve "/" (actions.foldl act s).cwd ∧
        (actions.foldl act s').tree = (actions.foldl act s).tree ∧
        ∀ line now, ((actions.foldl act s).submit line now).1.Agrees
          ((actions.foldl act s').submit line now).1 := by
  have hhome : s.home = lesson.home := by
    obtain ⟨tree, -, rfl⟩ := ofLesson_eq_ok.mp hstart
    rfl
  obtain ⟨s', hstart', hrespelled⟩ := exists_respelled_start hstart
  refine ⟨s', by rwa [Path.resolve_root_of_plain hplain], fun actions => ?_⟩
  obtain ⟨hlater, hlaterHome⟩ := hrespelled.acts (sound_ofLesson hstart) (hhome ▸ hparent) actions
  refine ⟨?_, ?_, fun line now => (hlater.submit hlaterHome line now).1⟩
  · obtain ⟨board, watchers, hsame⟩ := hlater
    rw [hsame]
    exact Path.resolve_root_normalize _
  · obtain ⟨board, watchers, hsame⟩ := hlater
    rw [hsame]

theorem submit_respelled_with_slashes :
    ∃ s s' : Session, ofLesson { Lesson.blank with home := "/home//quest/" } ⟨0⟩ = .ok s ∧
      ofLesson { Lesson.blank with home := Path.resolve "/" "/home//quest/" } ⟨0⟩ = .ok s' ∧
      ∃ after after', act s (.submit "mkdir d" ⟨1⟩) = after ∧
        act s' (.submit "mkdir d" ⟨1⟩) = after' ∧ after.cwd = "/home//quest/" ∧
        Path.resolve "/" after'.cwd = "/home/quest" ∧
        after'.tree.isDirectory "/home/quest/d" = true ∧
        (after'.submit "cat d" ⟨2⟩).1.events.map (·.succeeded) = [false] := by
  have hplain : ∀ c ∈ Path.components "/home//quest/", c ≠ "." ∧ c ≠ ".." := by decide +kernel
  have hparent : Path.StartsWithParent "/home//quest/" := by
    right
    rw [← List.isPrefixOf_iff_prefix]
    decide +kernel
  have hrun : ((ofLesson { Lesson.blank with home := "/home//quest/" } ⟨0⟩).toOption.map fun s =>
      let after := act s (.submit "mkdir d" ⟨1⟩)
      (after.cwd, Path.resolve "/" after.cwd, after.tree.isDirectory "/home/quest/d",
        (after.submit "cat d" ⟨2⟩).1.events.map (·.succeeded))) =
      some ("/home//quest/", "/home/quest", true, [false]) := by decide +kernel
  obtain ⟨s, hstart, hseen⟩ := exists_ofLesson hrun
  simp only [Prod.mk.injEq] at hseen
  obtain ⟨hcwd, hresolved, hmade, hfailed⟩ := hseen
  obtain ⟨s', hstart', hsame⟩ := submit_respelled (by exact hplain) (by exact hparent) hstart
  obtain ⟨hplace, htree, hreply⟩ := hsame [.submit "mkdir d" ⟨1⟩]
  simp only [List.foldl_cons, List.foldl_nil] at hplace htree hreply
  refine ⟨s, s', hstart, hstart', _, _, rfl, rfl, hcwd, hplace.trans hresolved, ?_, ?_⟩
  · rw [htree]
    exact hmade
  · rw [(hreply "cat d" ⟨2⟩).succeeded]
    exact hfailed

/-- With a doubled slash before the directory that home lies in, `cd ..` leads above home. With a
dot in home, nothing can be made there, since the tree has home under its spelling. -/
theorem submit_tells_spelling :
    (∃ s s' : Session,
      (Lesson.validate { Lesson.blank with home := "//home/quest" }).toOption.isSome = true ∧
      ofLesson { Lesson.blank with home := "//home/quest" } ⟨0⟩ = .ok s ∧
      ofLesson { Lesson.blank with home := Path.resolve "/" "//home/quest" } ⟨0⟩ = .ok s' ∧
      Path.resolve "/" (s.submit "cd .." ⟨1⟩).2.cwd = "/home" ∧
      Path.resolve "/" (s'.submit "cd .." ⟨1⟩).2.cwd = "/home/quest") ∧
    ∃ s s' : Session,
      (Lesson.validate { Lesson.blank with home := "/home/./quest" }).toOption.isSome = true ∧
      ofLesson { Lesson.blank with home := "/home/./quest" } ⟨0⟩ = .ok s ∧
      ofLesson { Lesson.blank with home := Path.resolve "/" "/home/./quest" } ⟨0⟩ = .ok s' ∧
      (s.submit "touch a" ⟨1⟩).1.events.map (·.succeeded) = [false] ∧
      (s'.submit "touch a" ⟨1⟩).1.events.map (·.succeeded) = [true] := by
  constructor
  · have hspelled : ((ofLesson { Lesson.blank with home := "//home/quest" } ⟨0⟩).toOption.map
        fun s => Path.resolve "/" (s.submit "cd .." ⟨1⟩).2.cwd) = some "/home" := by decide +kernel
    have hresolved : ((ofLesson { Lesson.blank with home := Path.resolve "/" "//home/quest" }
        ⟨0⟩).toOption.map fun s => Path.resolve "/" (s.submit "cd .." ⟨1⟩).2.cwd) =
          some "/home/quest" := by decide +kernel
    obtain ⟨s, hstart, hup⟩ := exists_ofLesson hspelled
    obtain ⟨s', hstart', hstays⟩ := exists_ofLesson hresolved
    exact ⟨s, s', by decide +kernel, hstart, hstart', hup, hstays⟩
  · have hspelled : ((ofLesson { Lesson.blank with home := "/home/./quest" } ⟨0⟩).toOption.map
        fun s => (s.submit "touch a" ⟨1⟩).1.events.map (·.succeeded)) = some [false] := by
      decide +kernel
    have hresolved : ((ofLesson { Lesson.blank with home := Path.resolve "/" "/home/./quest" }
        ⟨0⟩).toOption.map fun s => (s.submit "touch a" ⟨1⟩).1.events.map (·.succeeded)) =
          some [true] := by decide +kernel
    obtain ⟨s, hstart, hfails⟩ := exists_ofLesson hspelled
    obtain ⟨s', hstart', hworks⟩ := exists_ofLesson hresolved
    exact ⟨s, s', by decide +kernel, hstart, hstart', hfails, hworks⟩

end Session

end ShellTutor

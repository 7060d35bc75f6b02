import ShellTutor.Proofs.Command.Frame
import ShellTutor.Proofs.Session.Reachable

/-!
# Sessions under all calls

Lines are not the only way to change a session: a file can be saved from outside at any time, boards
come to watch, and the tasks can be started anew. Soundness survives all of it, so that `Submitted`
still tells what a line can do. From that two things are read off. Nothing is lost from the tree of
a session, however it goes on. And what a line touches tells which command it ran.
-/

namespace ShellTutor

namespace Session

variable {s next : Session} {line : String} {now : Timestamp} {events : List CommandEvent}

/-- What can be done with a session. -/
inductive Action where
  | submit (line : String) (now : Timestamp)
  | save (name content : String) (now : Timestamp)
  | watch (board : TaskBoard)
  | resetTasks

/-- The session after a file was saved. A save that fails leaves it as it was. -/
def afterSave (s : Session) (name content : String) (now : Timestamp) : Session :=
  match s.saveFile name content now with
  | .error _ => s
  | .ok (_, next) => next

/-- The session after an action. -/
def act (s : Session) : Action → Session
  | .submit line now => (s.submit line now).2
  | .save name content now => s.afterSave name content now
  | .watch board => s.watch board
  | .resetTasks => s.resetTasks

/-- A save fails, or it writes the file that the name leads to and reports it. -/
theorem afterSave_cases (s : Session) (name content : String) (now : Timestamp) :
    s.afterSave name content now = s ∨
      ∃ tree, s.tree.writeFile (Path.parent (Path.resolve s.cwd name))
          (Path.lastName (Path.resolve s.cwd name)) content .overwrite now = .ok tree ∧
        s.afterSave name content now =
          ({ s with tree } : Session).seen (.saved (Path.resolve s.cwd name) s.cwd) := by
  have hresolved := Path.isResolved_resolve s.cwd name
  have hsave : s.saveFile name content now =
      s.saveFile (Path.resolve s.cwd name) content now := by
    have hfixed := hresolved.resolve_eq s.cwd
    unfold saveFile
    generalize Path.resolve s.cwd name = path at hfixed ⊢
    rw [hfixed]
  unfold afterSave
  rw [hsave, saveFile_eq s hresolved]
  generalize Path.resolve s.cwd name = path
  cases hwrite :
    s.tree.writeFile (Path.parent path) (Path.lastName path) content .overwrite now with
  | error e => exact Or.inl rfl
  | ok tree =>
    obtain ⟨-, hnext⟩ := report_eq { s with tree } [.notice ("saved " ++ Path.lastName path)]
      (.saved path s.cwd)
    simp only
    generalize ({ s with tree } : Session).report _ _ = reported at hnext ⊢
    exact Or.inr ⟨tree, rfl, hnext⟩

/-- Whatever is done with a session, it stays sound. -/
theorem Sound.act (h : s.Sound) (action : Action) : (s.act action).Sound := by
  cases action with
  | submit line now => exact h.submit line now
  | watch board => exact ⟨h.connected, h.apart, h.writable⟩
  | resetTasks => exact ⟨h.connected, h.apart, h.writable⟩
  | save name content now =>
    rcases s.afterSave_cases name content now with hsame | ⟨tree, hwrite, hnext⟩
    · rw [Session.act, hsame]
      exact h
    · have hchange := FileTree.change_of_writeFile hwrite
      have hwritten := FileTree.writtenAt_of_writeFile (Path.isNormal_resolve s.cwd name) hwrite
      rw [Session.act, hnext]
      refine ⟨h.connected.change hchange, h.apart, fun e he => ?_⟩
      obtain ⟨hresolved, hplace⟩ := h.writable e he
      exact ⟨hresolved, hplace.of_writtenAt hchange hwritten⟩

theorem Sound.acts (h : s.Sound) (actions : List Action) : (actions.foldl Session.act s).Sound := by
  induction actions generalizing s with
  | nil => exact h
  | cons action rest ih => exact ih (h.act action)

theorem Sound.fixed_act (h : s.Sound) (action : Action) :
    (s.act action).home = s.home ∧ (s.act action).registry = s.registry := by
  cases action with
  | submit line now => exact (h.submitted line now).fixed
  | watch board => exact ⟨rfl, rfl⟩
  | resetTasks => exact ⟨rfl, rfl⟩
  | save name content now =>
    rcases s.afterSave_cases name content now with hsame | ⟨tree, -, hnext⟩
    · rw [Session.act, hsame]
      exact ⟨rfl, rfl⟩
    · rw [Session.act, hnext]
      exact ⟨rfl, rfl⟩

/-- Home and the enabled commands are fixed for a session, whatever is done with it. -/
theorem Sound.fixed_acts (h : s.Sound) (actions : List Action) :
    (actions.foldl Session.act s).home = s.home ∧
      (actions.foldl Session.act s).registry = s.registry := by
  induction actions generalizing s with
  | nil => exact ⟨rfl, rfl⟩
  | cons action rest ih =>
    obtain ⟨hhome, hregistry⟩ := h.fixed_act action
    obtain ⟨hhomes, hregistries⟩ := ih (h.act action)
    exact ⟨hhomes.trans hhome, hregistries.trans hregistry⟩

/-- An action changes the tree by single changes only. -/
theorem Sound.changes_act (h : s.Sound) (action : Action) :
    FileTree.Changes s.tree (s.act action).tree := by
  cases action with
  | submit line now => exact (h.submitted line now).changes
  | watch board => exact .refl
  | resetTasks => exact .refl
  | save name content now =>
    rcases s.afterSave_cases name content now with hsame | ⟨tree, hwrite, hnext⟩
    · rw [Session.act, hsame]
      exact .refl
    · rw [Session.act, hnext]
      exact .single (FileTree.change_of_writeFile hwrite)

theorem Sound.changes_acts (h : s.Sound) (actions : List Action) :
    FileTree.Changes s.tree (actions.foldl Session.act s).tree := by
  induction actions generalizing s with
  | nil => exact .refl
  | cons action rest ih => exact (h.changes_act action).trans (ih (h.act action))

theorem sound_ofLesson {lesson : Lesson} (h : ofLesson lesson now = .ok s) : s.Sound :=
  sound_of_reachable (.start h)

/-- The line goes to the commands and consists of a single stage without redirect, which is looked
up as the given command. -/
def Runs (s : Session) (line : String) (cmd : Command) : Prop :=
  s.takesCommands = true ∧ ∃ tokens args,
    ParsedLine.parse (Text.trim line) = .ok { stages := [tokens] } ∧
      s.registry.resolveStage tokens = .ok (cmd, args)

/-- What is known of a line that touched a part of the session. -/
structure Touches (s : Session) (line : String) (next : Session) : Prop where
  /-- A single command touches the tree only if it is marked as mutating. -/
  tree : ∀ tokens, s.takesCommands = true →
    ParsedLine.parse (Text.trim line) = .ok { stages := [tokens] } → next.tree ≠ s.tree →
      ∃ cmd, s.Runs line cmd ∧ cmd.mutates = true
  cwd : next.cwd ≠ s.cwd → s.Runs line .cd
  vars : next.vars ≠ s.vars → s.Runs line .bash ∨ s.Runs line .runScript

theorem Touches.of_untouched (htree : next.tree = s.tree) (hcwd : next.cwd = s.cwd)
    (hvars : next.vars = s.vars) : s.Touches line next :=
  ⟨fun _ _ _ hne => absurd htree hne, fun hne => absurd hcwd hne, fun hne => absurd hvars hne⟩

/-- A command that was run touches what its frame leaves open. -/
theorem Touches.of_frame {cmd : Command} {env : Environment} (hruns : s.Runs line cmd)
    (hframe : cmd.Frame (s.environment now) env) (htree : next.tree = env.tree)
    (hcwd : next.cwd = env.cwd) (hvars : next.vars = env.vars) : s.Touches line next := by
  constructor
  case tree =>
    intro tokens _ _ hne
    refine ⟨cmd, hruns, ?_⟩
    by_contra hmark
    exact hne (htree.trans (hframe.tree (by simpa using hmark)))
  case cwd =>
    intro hne
    by_cases hcd : cmd = .cd
    · exact hcd ▸ hruns
    · exact absurd (hcwd.trans (hframe.cwd hcd)) hne
  case vars =>
    intro hne
    by_cases hbash : cmd = .bash
    · exact Or.inl (hbash ▸ hruns)
    · by_cases hscript : cmd = .runScript
      · exact Or.inr (hscript ▸ hruns)
      · exact absurd (hvars.trans (hframe.vars hbash hscript)) hne

theorem Submitted.touches (h : s.Submitted line now events next) : s.Touches line next := by
  cases h with
  | paged => exact .of_untouched rfl rfl rfl
  | edited => exact .of_untouched rfl rfl rfl
  | blank => exact .of_untouched rfl rfl rfl
  | unread => exact .of_untouched rfl rfl rfl
  | @written e heditor hline tree htree buffer hbuffer =>
    refine ⟨fun _ hcommands => ?_, fun hne => absurd rfl hne, fun hne => absurd rfl hne⟩
    rw [(takesCommands_iff.mp hcommands).2] at heditor
    cases heditor
  | @ran hcommands hline parsed hparse =>
    have hframe := afterRun_frame (s.logged (Text.trim line)) parsed now
    have htree := congrArg Session.tree hframe
    have hcwd := congrArg Session.cwd hframe
    have hvars := congrArg Session.vars hframe
    simp only at htree hcwd hvars
    rcases s.registry.run_effect parsed none ((s.logged (Text.trim line)).environment now) with
      hsame | ⟨tokens, cmd, args, hsingle, hresolve, -, hrun⟩ | ⟨hredirect, tree, -, hrun⟩
    · exact .of_untouched (htree.trans (congrArg Environment.tree hsame))
        (hcwd.trans (congrArg Environment.cwd hsame))
        (hvars.trans (congrArg Environment.vars hsame))
    · have hafter := cmd.frame_execute args none ((s.logged (Text.trim line)).environment now)
      rw [← hrun] at hafter
      have hruns : s.Runs line cmd :=
        ⟨hcommands, tokens, args, hparse.trans (congrArg Except.ok hsingle), hresolve⟩
      have hlogged : cmd.Frame (s.environment now) (s.registry.run parsed none
          ((s.logged (Text.trim line)).environment now)).2 :=
        ⟨hafter.tree, hafter.cwd, hafter.vars⟩
      exact .of_frame hruns hlogged htree hcwd hvars
    · refine ⟨fun tokens _ hplain => ?_, ?_, ?_⟩
      · rw [hparse, Except.ok.injEq] at hplain
        rw [hplain] at hredirect
        cases hredirect
      · exact fun hne => absurd (hcwd.trans (congrArg Environment.cwd hrun)) hne
      · exact fun hne => absurd (hvars.trans (congrArg Environment.vars hrun)) hne

/-- Nothing is ever lost from the tree of a session, and at any time a line touches only what its
command is meant to touch. -/
theorem acts_keep {lesson : Lesson} {start : Session} (h : ofLesson lesson now = .ok start)
    (earlier later : List Action) (line : String) (now' : Timestamp) :
    (earlier.foldl act start).tree.Kept (later.foldl act (earlier.foldl act start)).tree ∧
      (earlier.foldl act start).Touches line
        ((earlier.foldl act start).submit line now').2 := by
  have hs : (earlier.foldl act start).Sound := (sound_ofLesson h).acts earlier
  exact ⟨(hs.changes_acts later).kept, (hs.submitted line now').touches⟩

theorem acts_keep_of_saved_file :
    ∃ start s, ofLesson { Lesson.blank with tree := [.directory "docs" []] } ⟨0⟩ = .ok start ∧
      [Action.save "docs/a" "x" ⟨1⟩].foldl act start = s ∧
      (∃ node more,
        ([Action.submit "cd docs" ⟨2⟩, .submit "touch b" ⟨3⟩].foldl act s).tree.get?
          "/home/quest//docs" = some node ∧ node.listing? = some (⟨0⟩, ["a"] ++ more)) ∧
      s.Runs "cd docs" .cd := by
  have hrun : ((ofLesson { Lesson.blank with tree := [.directory "docs" []] } ⟨0⟩).toOption.map
      fun start =>
        let s := [Action.save "docs/a" "x" ⟨1⟩].foldl act start
        ((s.tree.get? "/home/quest//docs").bind Node.listing?, s.cwd,
          (s.submit "cd docs" ⟨2⟩).2.cwd)) =
      some (some (⟨0⟩, ["a"]), "/home/quest", "/home/quest/docs") := by
    decide +kernel
  obtain ⟨start, hstart, hseen⟩ := exists_ofLesson hrun
  simp only [Prod.mk.injEq] at hseen
  obtain ⟨hlisting, hcwd, hmoved⟩ := hseen
  obtain ⟨node, hnode, hlisting⟩ := Option.bind_eq_some_iff.mp hlisting
  obtain ⟨hkept, htouches⟩ := acts_keep hstart [.save "docs/a" "x" ⟨1⟩]
    [.submit "cd docs" ⟨2⟩, .submit "touch b" ⟨3⟩] "cd docs" ⟨2⟩
  obtain ⟨node', hnode', hgrows⟩ := hkept _ node hnode
  obtain ⟨more, hmore⟩ := hgrows.listing _ _ hlisting
  refine ⟨start, _, hstart, rfl, ⟨node', more, hnode', hmore⟩, htouches.cwd ?_⟩
  rw [hmoved, hcwd]
  decide

end Session

end ShellTutor

import Mathlib.Data.List.Induction
import ShellTutor.Proofs.Script.Names
import ShellTutor.Proofs.Session.Actions

/-!
# The variables of a session

Only scripts set variables, so each name that a session knows goes back to a line that ran one. Most
names are identifiers. The others are words that a `read` named, and there is no word that it does
not take.
-/

namespace ShellTutor

/-- The command runs a script with the given text when it is called on the operand. `bash` runs all
that can be read; for a script that is called by its path, its owner needs the permission to
execute, too. -/
def Command.RunsText (cmd : Command) (tree : FileTree) (cwd operand source : String) : Prop :=
  tree.readFrom cwd operand = .ok source ∧
    (cmd = .bash ∨ cmd = .runScript ∧ ∃ node, tree.get? (Path.resolve cwd operand) = some node ∧
      node.permissions.owner.exec = true)

namespace Command

variable {cmd : Command} {args : List String} {env : Environment} {operand source : String}

theorem RunsText.execute_eq (h : cmd.RunsText env.tree env.cwd operand source)
    (more : List String) (piped : Option String) :
    cmd.execute (operand :: more) piped env = Script.runOperand operand env := by
  obtain ⟨hread, rfl | ⟨rfl, node, hnode, hexec⟩⟩ := h
  · rfl
  · obtain ⟨found, hfound, hbody, -⟩ := FileTree.readFrom_eq_ok.mp hread
    obtain rfl : node = found := Option.some.inj (hnode.symm.trans hfound)
    have hfile : node.isDirectory = false := by rw [Node.isDirectory, hbody]
    rw [execute, List.headD_cons, Script.execute_of_file hnode hfile, if_pos hexec]

theorem RunsText.checkArity (h : cmd.RunsText env.tree env.cwd operand source)
    (more : List String) : Registry.checkArity cmd (operand :: more) = .ok () := by
  obtain ⟨-, rfl | ⟨rfl, -⟩⟩ := h <;> simp [Registry.checkArity, minArgs]

/-- A command leaves the variables as they are, or it runs a script. -/
theorem vars_of_execute (harity : Registry.checkArity cmd args = .ok ()) (piped : Option String)
    (env : Environment) :
    (cmd.execute args piped env).2.vars = env.vars ∨
      ∃ operand more source, args = operand :: more ∧
        cmd.RunsText env.tree env.cwd operand source := by
  by_cases hscript : cmd = .bash ∨ cmd = .runScript
  · obtain ⟨operand, more, rfl⟩ : ∃ operand more, args = operand :: more := by
      cases args with
      | nil => rcases hscript with rfl | rfl <;> cases harity
      | cons operand more => exact ⟨operand, more, rfl⟩
    cases hread : env.tree.readFrom env.cwd operand with
    | error e =>
      have hrun : (Script.runOperand operand env).2 = env := by
        rw [Script.runOperand_eq, Environment.readOperand, hread]
      rcases hscript with rfl | rfl
      · exact Or.inl (congrArg Environment.vars hrun)
      · rcases Script.execute_cases operand env with ⟨cause, hfail⟩ | hsame
        · exact Or.inl (congrArg (fun out : Outcome => out.2.vars) hfail)
        · exact Or.inl (congrArg Environment.vars ((congrArg Prod.snd hsame).trans hrun))
    | ok source =>
      rcases hscript with rfl | rfl
      · exact Or.inr ⟨operand, more, source, rfl, hread, Or.inl rfl⟩
      · obtain ⟨node, hnode, hbody, -⟩ := FileTree.readFrom_eq_ok.mp hread
        by_cases hexec : node.permissions.owner.exec = true
        · exact Or.inr ⟨operand, more, source, rfl, hread, Or.inr ⟨rfl, node, hnode, hexec⟩⟩
        · have hfile : node.isDirectory = false := by rw [Node.isDirectory, hbody]
          rw [execute, List.headD_cons, Script.execute_of_file hnode hfile, if_neg hexec]
          exact Or.inl rfl
  · rw [not_or] at hscript
    exact Or.inl ((cmd.frame_execute args piped env).vars hscript.1 hscript.2)

end Command

theorem Variables.mem_names_iff {vars : Variables} {name : String} :
    name ∈ vars.names ↔ ∃ value, vars.get? name = some value := by
  rw [names, get?, ← Option.isSome_iff_exists, List.lookup_isSome_iff, List.mem_map]
  simp only [beq_iff_eq, eq_comm (a := name)]

namespace Session

variable {s next begun : Session} {line source : String} {now : Timestamp}
  {events : List CommandEvent}

/-- The line goes to the commands and runs a script with the given text. -/
def RunsScript (s : Session) (line source : String) : Prop :=
  s.takesCommands = true ∧ ∃ tokens cmd operand more,
    ParsedLine.parse (Text.trim line) = .ok { stages := [tokens] } ∧
      s.registry.resolveStage tokens = .ok (cmd, operand :: more) ∧
        cmd.RunsText s.tree s.cwd operand source

/-- A line that runs a script leaves behind what the script sets. -/
theorem RunsScript.vars_submit (h : s.RunsScript line source) (now : Timestamp) :
    (s.submit line now).2.vars = Script.assignAll s.vars (Script.setsOf source) := by
  obtain ⟨hcommands, tokens, cmd, operand, more, hparse, hresolve, htext⟩ := h
  have hline : Text.trim line ≠ "" := ne_empty_of_parse hparse (List.cons_ne_nil _ _)
  generalize henv : (s.logged (Text.trim line)).environment now = env
  have hruns : cmd.RunsText env.tree env.cwd operand source := henv ▸ htext
  have hread : env.readOperand operand = .ok source := henv ▸ htext.1
  have hdispatch := Registry.dispatch_of_resolveStage hresolve (hruns.checkArity more) none env
  rw [submit_of_parse hcommands hline hparse, afterRun_frame, henv]
  show ((s.registry.run _ none env).2).vars = _
  rw [Registry.run_singleton, hdispatch, hruns.execute_eq, Script.runOperand_sets hread, ← henv]
  rfl

/-- A line leaves the variables as they are, or it runs a script. -/
theorem Submitted.vars_cases (h : s.Submitted line now events next) :
    next.vars = s.vars ∨ ∃ source, s.RunsScript line source := by
  cases h with
  | @ran hcommands hline parsed hparse =>
    rw [seen, afterRun_frame]
    rcases s.registry.run_effect parsed none ((s.logged (Text.trim line)).environment now) with
      hsame | ⟨tokens, cmd, args, rfl, hresolve, harity, hrun⟩ | ⟨-, tree, -, hrun⟩
    · exact Or.inl (congrArg Environment.vars hsame)
    · rcases cmd.vars_of_execute harity none ((s.logged (Text.trim line)).environment now) with
        hvars | ⟨operand, more, source, rfl, htext⟩
      · exact Or.inl ((congrArg (fun out : Outcome => out.2.vars) hrun).trans hvars)
      · exact Or.inr ⟨source, hcommands, tokens, cmd, operand, more, hparse, hresolve, htext⟩
    · exact Or.inl (congrArg Environment.vars hrun)
  | _ => exact Or.inl rfl

/-- One of the lines that were submitted ran a script in which a `read` names the given word. -/
def ReadBy (begun : Session) (actions : List Action) (name : String) : Prop :=
  ∃ earlier line now later source, actions = earlier ++ .submit line now :: later ∧
    (earlier.foldl act begun).RunsScript line source ∧ Script.Reads source name

theorem ReadBy.append {actions : List Action} {name : String} (h : ReadBy begun actions name)
    (more : List Action) : ReadBy begun (actions ++ more) name := by
  obtain ⟨earlier, line, now, later, source, rfl, hruns, hreads⟩ := h
  exact ⟨earlier, line, now, later ++ more, source, by simp, hruns, hreads⟩

/-- A variable without an identifier for its name was set by `read`. -/
theorem Sound.isIdentifier_or_readBy (h : begun.Sound) (hbegun : begun.vars = {})
    (actions : List Action) {name value : String}
    (hvalue : (actions.foldl Session.act begun).vars.get? name = some value) :
    Script.isIdentifier name.toList = true ∨
      value = Script.demoInput ∧ ReadBy begun actions name := by
  induction actions using List.reverseRecOn generalizing value with
  | nil =>
    rw [List.foldl_nil, hbegun] at hvalue
    cases hvalue
  | append_singleton earlier action ih =>
    have hs : (earlier.foldl Session.act begun).Sound := h.acts earlier
    rw [List.foldl_append, List.foldl_cons, List.foldl_nil] at hvalue
    have hkept (hsame : ((earlier.foldl Session.act begun).act action).vars =
        (earlier.foldl Session.act begun).vars) : Script.isIdentifier name.toList = true ∨
          value = Script.demoInput ∧ ReadBy begun (earlier ++ [action]) name := by
      rw [hsame] at hvalue
      exact (ih hvalue).imp_right fun hread => ⟨hread.1, hread.2.append [action]⟩
    cases action with
    | watch board => exact hkept rfl
    | resetTasks => exact hkept rfl
    | save file content now =>
      refine hkept ?_
      rcases (earlier.foldl Session.act begun).afterSave_cases file content now with
        hsame | ⟨tree, -, hnext⟩
      · rw [Session.act, hsame]
      · rw [Session.act, hnext]
        rfl
    | submit line now =>
      rcases (hs.submitted line now).vars_cases with hsame | ⟨source, hruns⟩
      · exact hkept hsame
      · rw [Session.act, hruns.vars_submit now, Script.get?_assignAll] at hvalue
        rcases Option.or_eq_some_iff.mp hvalue with hset | ⟨-, hbefore⟩
        · obtain ⟨front, back, hsplit, -⟩ := List.lookup_eq_some_iff.mp hset
          have hmem : (name, value) ∈ Script.setsOf source := by
            rw [← List.mem_reverse, hsplit]
            simp
          exact (Script.isIdentifier_or_reads hmem).imp_right fun hread =>
            ⟨hread.1, earlier, line, now, [], source, rfl, hruns, hread.2⟩
        · exact (ih hbefore).imp_right fun hread => ⟨hread.1, hread.2.append _⟩

/-- The names of a session's variables are identifiers, apart from the words that scripts read: such
a word has the value that is read. Every word that a script reads becomes a name. -/
theorem names_of_acts {lesson : Lesson} {now₀ : Timestamp} (h : ofLesson lesson now₀ = .ok begun)
    (actions : List Action) :
    (∀ name ∈ (actions.foldl act begun).vars.names,
      Script.isIdentifier name.toList = true ∨
        (actions.foldl act begun).vars.get? name = some Script.demoInput ∧
          ReadBy begun actions name) ∧
      ∀ line source, (actions.foldl act begun).RunsScript line source →
        ∀ name, Script.Reads source name →
          ∀ now, name ∈ ((actions.foldl act begun).submit line now).2.vars.names := by
  have hbegun : begun.vars = {} := by
    obtain ⟨tree, -, rfl⟩ := ofLesson_eq_ok.mp h
    rfl
  refine ⟨fun name hname => ?_, fun line source hruns name hreads now => ?_⟩
  · obtain ⟨value, hvalue⟩ := Variables.mem_names_iff.mp hname
    rcases (sound_ofLesson h).isIdentifier_or_readBy hbegun actions hvalue with hid | ⟨rfl, hread⟩
    · exact Or.inl hid
    · exact Or.inr ⟨hvalue, hread⟩
  · rw [hruns.vars_submit now, Script.mem_names_assignAll]
    exact Or.inr (List.mem_map_of_mem (Script.mem_setsOf_of_reads hreads))

theorem names_of_acts_of_quiz :
    ∃ begun s : Session, ofLesson { Lesson.blank with
        tree := [.file "quiz.sh" "X=1\nread user-name\nread ANSWER"] } ⟨0⟩ = .ok begun ∧
      [Action.submit "bash quiz.sh" ⟨1⟩].foldl act begun = s ∧
      s.vars.names = ["X", "user-name", "ANSWER"] ∧
      s.vars.get? "user-name" = some Script.demoInput ∧
      ReadBy begun [.submit "bash quiz.sh" ⟨1⟩] "user-name" ∧
      "ANSWER" ∈ (s.submit "bash ./quiz.sh" ⟨2⟩).2.vars.names := by
  have hrun : ((ofLesson { Lesson.blank with
      tree := [.file "quiz.sh" "X=1\nread user-name\nread ANSWER"] } ⟨0⟩).toOption.map fun begun =>
        let s := [Action.submit "bash quiz.sh" ⟨1⟩].foldl act begun
        ((s.vars.names, s.takesCommands, (s.tree.readFrom s.cwd "./quiz.sh").toOption),
          (s.registry.resolveStage ["bash", "./quiz.sh"]).toOption)) =
      some ((["X", "user-name", "ANSWER"], true, some "X=1\nread user-name\nread ANSWER"),
        some (.bash, ["./quiz.sh"])) := by
    decide +kernel
  obtain ⟨begun, hbegun, hseen⟩ := exists_ofLesson hrun
  simp only [Prod.mk.injEq, Outcome.toOption_eq_some_iff] at hseen
  obtain ⟨⟨hnames, hcommands, hread⟩, hresolve⟩ := hseen
  have hparse : ParsedLine.parse (Text.trim "bash ./quiz.sh") =
      .ok { stages := [["bash", "./quiz.sh"]] } := by
    decide +kernel
  have hreads : Script.Reads "X=1\nread user-name\nread ANSWER" "ANSWER" :=
    ⟨"read ANSWER", by decide +kernel⟩
  obtain ⟨horigin, hlater⟩ := names_of_acts hbegun [.submit "bash quiz.sh" ⟨1⟩]
  obtain ⟨hvalue, hreadBy⟩ :=
    (horigin "user-name" (by rw [hnames]; decide)).resolve_left (by decide)
  refine ⟨begun, _, hbegun, rfl, hnames, hvalue, hreadBy, ?_⟩
  exact hlater "bash ./quiz.sh" _
    ⟨hcommands, _, .bash, "./quiz.sh", [], hparse, hresolve, hread, Or.inl rfl⟩ "ANSWER" hreads ⟨2⟩

/-- `read` takes a word that no assignment would take. -/
theorem submit_sets_hyphened_name :
    ∃ s : Session, Reachable { Lesson.blank with tree := [.file "s.sh" "read user-name"] } s ∧
      s.vars.names = ["user-name"] ∧ Script.isIdentifier "user-name".toList = false ∧
      Script.assignment? "user-name=Ada".toList = none := by
  have hrun : ((ofLesson { Lesson.blank with tree := [.file "s.sh" "read user-name"] }
      ⟨0⟩).toOption.map fun begun => (begun.submit "bash s.sh" ⟨1⟩).2.vars.names) =
      some ["user-name"] := by
    decide +kernel
  obtain ⟨begun, hbegun, hnames⟩ := exists_start hrun
  exact ⟨_, hbegun.submit "bash s.sh" ⟨1⟩, hnames, by decide, by decide⟩

end Session

end ShellTutor

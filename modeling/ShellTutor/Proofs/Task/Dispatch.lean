import ShellTutor.Proofs.Command.Frame
import ShellTutor.Proofs.Command.Grammar
import ShellTutor.Task.Event

/-!
# Events tell what was run

Rules of tasks go by the keys, the arguments and the target of an event, and these are worked out
from the words of the line without running it. They are nevertheless what the registry goes by: from
the event alone the first command can be called again, and if that is a script, its target is the
file that is run.
-/

namespace ShellTutor

/-- What a word calls: the key of a command, and what is put in front of the arguments. -/
inductive Calls : String → String → List String → Prop
  /-- A script behind `./` is run, and is itself the first argument. -/
  | script {name : String} (hname : name ≠ "") : Calls ("./" ++ name) "./" [name]
  /-- Any other word is the name of a command, in whatever letter case. -/
  | named {word : String} (hword : ∀ name, name ≠ "" → word ≠ "./" ++ name) :
      Calls word word.toLower []

theorem scriptOf?_eq_some_iff {word name : String} :
    scriptOf? word = some name ↔ name ≠ "" ∧ word = "./" ++ name := by
  have hword : word = "./" ++ name ↔ word.toList = '.' :: '/' :: name.toList := by
    rw [← String.toList_inj, String.toList_append]
    rfl
  rw [hword, scriptOf?]
  split
  · rename_i c cs hcs
    rw [hcs, Option.some.injEq, ← String.toList_inj, String.toList_ofList]
    constructor
    · rintro hname
      refine ⟨?_, by rw [hname]⟩
      rintro rfl
      cases hname
    · rintro ⟨-, hname⟩
      exact (List.cons.inj (List.cons.inj hname).2).2
  · rename_i hnone
    refine iff_of_false (by simp) ?_
    rintro ⟨hname, hcs⟩
    obtain ⟨c, cs, hmore⟩ := List.exists_cons_of_ne_nil (mt String.toList_eq_nil_iff.mp hname)
    exact hnone c cs (hmore ▸ hcs)

/-- Each word calls one thing. -/
theorem calls_iff {word key : String} {front : List String} :
    Calls word key front ↔ key = commandKey word ∧ front = (scriptOf? word).toList := by
  constructor
  · intro h
    cases h with
    | @script name hname =>
      have hscript : scriptOf? ("./" ++ name) = some name := scriptOf?_eq_some_iff.mpr ⟨hname, rfl⟩
      rw [commandKey, hscript]
      exact ⟨rfl, rfl⟩
    | named hword =>
      have hscript : scriptOf? word = none := by
        refine Option.eq_none_iff_forall_ne_some.mpr fun name hsome => ?_
        obtain ⟨hname, heq⟩ := scriptOf?_eq_some_iff.mp hsome
        exact hword name hname heq
      rw [commandKey, hscript]
      exact ⟨rfl, rfl⟩
  · rintro ⟨rfl, rfl⟩
    cases hscript : scriptOf? word with
    | none =>
      rw [commandKey, hscript]
      exact .named fun name hname heq => by
        rw [scriptOf?_eq_some_iff.mpr ⟨hname, heq⟩] at hscript
        cases hscript
    | some name =>
      obtain ⟨hname, rfl⟩ := scriptOf?_eq_some_iff.mp hscript
      rw [commandKey, hscript]
      exact .script hname

namespace Registry

/-- What is found under a key for a stage with the given first word and arguments: the command of
that name, if it is enabled. -/
def lookUp (reg : Registry) (word key : String) (args : List String) :
    Except ShellError (Command × List String) :=
  match reg.find? key with
  | some cmd => if reg.isEnabled key then .ok (cmd, args) else .error (.commandNotFound word)
  | none => .error (.commandNotFound word)

/-- Calls what is found under a key, on arguments. -/
def call (reg : Registry) (word key : String) (args : List String) (piped : Option String)
    (env : Environment) : Outcome :=
  if key = "help" then (reg.help args, env)
  else
    match reg.lookUp word key args with
    | .error e => (.error e, env)
    | .ok (cmd, args) =>
      match checkArity cmd args with
      | .error e => (.error e, env)
      | .ok () => cmd.execute args piped env

end Registry

/-- What a script does that is called on an operand, if it is the file at the given path. -/
def Script.runAt (path operand : String) (env : Environment) : Outcome :=
  match env.tree.get? path with
  | none => (.error (.notFound ("./" ++ operand)), env)
  | some node =>
    match node.body with
    | .directory _ _ => (.error (.isADirectory ("./" ++ operand)), env)
    | .file source =>
      if !node.permissions.owner.exec then (.error (.permissionDenied ("./" ++ operand)), env)
      else if !node.permissions.owner.read then
        (.error (.permissionDenied (Path.lastName path)), env)
      else
        let (printed, after) := Script.run operand source env
        (.ok (.text (Text.unlines printed)), after)

/-- A stage is looked up under the given key, with the given arguments, in every registry. -/
def LookedUp (tokens : List String) (key : String) (args : List String) : Prop :=
  ∃ word rest front, tokens = word :: rest ∧ Calls word key front ∧ args = front ++ rest ∧
    ∀ reg : Registry, reg.resolveStage tokens = reg.lookUp word key args

theorem lookedUp_cons (word : String) (rest : List String) :
    LookedUp (word :: rest) (commandKey word) (stageArgs (word :: rest)) :=
  ⟨word, rest, _, rfl, calls_iff.mpr ⟨rfl, rfl⟩, rfl, fun _ => rfl⟩

theorem Registry.dispatch_eq_call (reg : Registry) {tokens args : List String} {key : String}
    (h : LookedUp tokens key args) (piped : Option String) (env : Environment) :
    reg.dispatch tokens piped env = reg.call (tokens.headD "") key args piped env := by
  obtain ⟨word, rest, front, rfl, hcalls, rfl, hlookUp⟩ := h
  obtain ⟨rfl, rfl⟩ := calls_iff.mp hcalls
  rw [dispatch, call, hlookUp, List.headD_cons]
  by_cases hhelp : word.toLower = "help"
  · have hscript : scriptOf? word = none := scriptOf?_of_toLower (by rw [hhelp]; decide)
    rw [if_pos hhelp, if_pos (commandKey_eq_help_iff.mpr hhelp), hscript]
    rfl
  · refine (if_neg hhelp).trans (Eq.trans ?_ (if_neg (mt commandKey_eq_help_iff.mp hhelp)).symm)
    cases reg.lookUp word (commandKey word) ((scriptOf? word).toList ++ rest) with
    | error e => rfl
    | ok found =>
      obtain ⟨cmd, args⟩ := found
      cases harity : checkArity cmd args <;> simp only [harity]

theorem Registry.args_of_lookUp {reg : Registry} {word key : String} {args given : List String}
    {cmd : Command} (h : reg.lookUp word key given = .ok (cmd, args)) : args = given := by
  rw [lookUp] at h
  split at h
  · split at h
    · rw [Except.ok.injEq, Prod.mk.injEq] at h
      exact h.2.symm
    · cases h
  · cases h

theorem Script.execute_eq_runAt (operand : String) (env : Environment) :
    execute operand env = runAt (env.resolve operand) operand env := by
  cases hnode : env.tree.get? (env.resolve operand) with
  | none =>
    rw [execute, runAt, hnode]
  | some node =>
    cases hbody : node.body with
    | directory created children =>
      rw [execute, runAt]
      simp only [hnode, Node.isDirectory, hbody, if_true]
    | file source =>
      have hfile : node.isDirectory = false := by rw [Node.isDirectory, hbody]
      rw [execute_of_file hnode hfile, runOperand_eq, Environment.readOperand,
        FileTree.readFrom_of_file hnode hbody, runAt]
      simp only [hnode, hbody]
      cases node.permissions.owner.exec <;> cases node.permissions.owner.read <;> rfl

theorem forall₂_lookedUp {stages : List (List String)} (h : ∀ tokens ∈ stages, tokens ≠ []) :
    List.Forall₂ (fun tokens key => ∃ args, LookedUp tokens key args) stages
      (stages.filterMap fun tokens => tokens.head?.map commandKey) := by
  induction stages with
  | nil => exact .nil
  | cons tokens later ih =>
    rw [List.forall_mem_cons] at h
    obtain ⟨word, rest, rfl⟩ := List.exists_cons_of_ne_nil h.1
    exact .cons ⟨_, lookedUp_cons word rest⟩ (ih h.2)

/-- What an event tells of the line that it reports. -/
structure CommandEvent.Describes (event : CommandEvent) (parsed : ParsedLine) : Prop where
  /-- Position by position, the stages are listed by the keys under which they are looked up. -/
  stages : List.Forall₂ (fun tokens key => ∃ args, LookedUp tokens key args) parsed.stages
    event.stages
  /-- The event is about the first of them, with the arguments that the command is given. -/
  first : event.stages.head? = some event.command ∧
    LookedUp (parsed.stages.headD []) event.command event.args
  /-- On its own the command is called just as the event has it. -/
  alone : parsed.isPipeline = false → ∀ (reg : Registry) piped env,
    reg.run parsed piped env =
      reg.call ((parsed.stages.headD []).headD "") event.command event.args piped env
  /-- At the start of a pipeline, whatever command is run is run on the arguments of the event. -/
  leading : ∀ (reg : Registry) cmd args piped,
    reg.prepareStage none (parsed.stages.headD []) = .ok (cmd, args, piped) →
      cmd.name = event.command ∧ args = event.args ∧
        ∀ env, (reg.runStage none (parsed.stages.headD []) env).1 =
          (cmd.execute event.args none env).1.map CommandOutput.data
  /-- The target of a script is the file that is run, if the directory is that of the session. -/
  script : event.command = "./" → ∀ operand more, event.args = operand :: more → ∀ start,
    ∃ path, (event.withTarget start).target = some path ∧ path = Path.resolve start operand ∧
      ∀ piped env, env.cwd = start →
        Command.runScript.execute event.args piped env = Script.runAt path operand env

/-- The event of a line that was read describes what the line runs. -/
theorem CommandEvent.describes_ofLine {text : String} {parsed : ParsedLine}
    (hparse : ParsedLine.parse text = .ok parsed) (hline : parsed.isEmpty = false) (line : String)
    (succeeded : Bool) (cwd : String) :
    (CommandEvent.ofLine line parsed succeeded cwd).Describes parsed := by
  obtain ⟨hstages, hall⟩ : parsed.stages ≠ [] ∧ ∀ tokens ∈ parsed.stages, tokens ≠ [] := by
    rcases ParsedLine.parse_sound hparse with rfl | hwell
    · cases hline
    · exact ⟨hwell.stages_ne_nil, fun tokens htokens => (hwell.stages tokens htokens).1⟩
  obtain ⟨stages, redirect⟩ := parsed
  obtain ⟨first, later, rfl⟩ := List.exists_cons_of_ne_nil hstages
  obtain ⟨word, rest, rfl⟩ := List.exists_cons_of_ne_nil (hall first (List.mem_cons_self ..))
  have hfirst : LookedUp (word :: rest) (commandKey word) (stageArgs (word :: rest)) :=
    lookedUp_cons word rest
  constructor
  case stages => exact forall₂_lookedUp hall
  case first => exact ⟨rfl, hfirst⟩
  case alone =>
    intro hplain reg piped env
    obtain ⟨tokens, hone⟩ := Registry.exists_eq_of_not_isPipeline hline hplain
    rw [hone, Registry.run_singleton]
    cases hone
    exact reg.dispatch_eq_call hfirst piped env
  case leading =>
    intro reg cmd args piped (hprepare : reg.prepareStage none (word :: rest) = _)
    obtain ⟨hresolve, -, -, hinput⟩ := Registry.prepareStage_eq_ok.mp hprepare
    have hargs : args = stageArgs (word :: rest) := Registry.args_of_lookUp hresolve
    refine ⟨Registry.name_of_resolveStage hresolve, hargs, fun env => ?_⟩
    obtain rfl : none = piped := Except.ok.inj hinput
    rw [List.headD_cons, Registry.runStage, hprepare, hargs]
    rfl
  case script =>
    rintro hkey operand more hargs start
    refine ⟨Path.resolve start operand, ?_, rfl, ?_⟩
    · rw [withTarget, operand?, if_pos hkey, hargs]
      rfl
    · rintro piped env rfl
      rw [hargs]
      exact Script.execute_eq_runAt operand env

theorem CommandEvent.describes_ofLine_of_script :
    ∃ parsed event, ParsedLine.parse "././tool.sh now | WC -l" = .ok parsed ∧
      event = CommandEvent.ofLine "././tool.sh now | WC -l" (some parsed) false "/home/quest" ∧
      event.stages = ["./", "wc"] ∧ event.args = ["./tool.sh", "now"] ∧
      LookedUp ["././tool.sh", "now"] "./" ["./tool.sh", "now"] ∧
      (event.withTarget "/home/quest/bin").target = some "/home/quest/bin/tool.sh" ∧
      ∀ env : Environment, env.cwd = "/home/quest/bin" →
        Command.runScript.execute event.args none env =
          Script.runAt "/home/quest/bin/tool.sh" "./tool.sh" env := by
  have hparse : ParsedLine.parse "././tool.sh now | WC -l" =
      .ok { stages := [["././tool.sh", "now"], ["WC", "-l"]] } := by
    decide +kernel
  have hpath : Path.resolve "/home/quest/bin" "./tool.sh" = "/home/quest/bin/tool.sh" := by
    decide +kernel
  have hevent :=
    CommandEvent.describes_ofLine hparse rfl "././tool.sh now | WC -l" false "/home/quest"
  obtain ⟨path, htarget, hresolved, hrun⟩ :=
    hevent.script rfl "./tool.sh" ["now"] rfl "/home/quest/bin"
  rw [hpath] at hresolved
  rw [hresolved] at htarget hrun
  exact ⟨_, _, hparse, rfl, by decide +kernel, rfl, hevent.first.2, htarget, hrun none⟩

end ShellTutor

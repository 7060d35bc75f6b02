import ShellTutor.Proofs.Command.Distinct
import ShellTutor.Proofs.Command.Operand
import ShellTutor.Proofs.Command.Sorting
import ShellTutor.Proofs.Session.Reachable
import ShellTutor.Proofs.Text.Lines

/-!
# Selected lines on the screen

A command that selects lines of a file gives them back as one text, and what is shown are the lines
of that text. So a selection is joined and taken apart again, and it is seen whole just if it comes
back whole.
-/

namespace ShellTutor

namespace Filter

theorem select_of_count {number operand text : String} {n : Nat}
    (hnumber : Number.count? number = some n) (hdash : operand.toList.head? ≠ some '-')
    {env : Environment} (hread : env.readOperand operand = .ok text)
    (choose : Nat → List String → List String) (usage : String) (piped : Option String) :
    select choose usage ["-n", number, operand] piped env =
      .ok (.text (Text.unlines (choose n (Text.lines text)))) := by
  have hcount : ({ awaitsCount := true } : SelectOptions).word number = .ok { count := n } := by
    simp [SelectOptions.word, SelectOptions.withCount, hnumber]
  have hfile : ({ count := n } : SelectOptions).word operand =
      .ok { count := n, file := some operand } :=
    SelectOptions.word_operand hdash rfl
  have hflag : ({} : SelectOptions).word "-n" = .ok { awaitsCount := true } := by decide
  simp [select, SelectOptions.parse, hflag, hcount, hfile, input, hread]

theorem takeLast_subset {α : Type} (n : Nat) (xs : List α) : takeLast n xs ⊆ xs :=
  List.drop_subset ..

section Sorted

variable {operand : String} (h : sortLetters operand = [])
include h

theorem sortFlags_concat (args : List String) : sortFlags (args ++ [operand]) = sortFlags args := by
  simp [sortFlags, h]

theorem sortFile_concat (args : List String) : sortFile (args ++ [operand]) = some operand := by
  simp [sortFile, h]

end Sorted

end Filter

namespace Command

open ShellTutor.Filter

/-- What `sort` does with a file behind its flags. -/
theorem execute_sort_concat {args : List String} {operand text : String}
    (hflags : ∀ c ∈ sortFlags args, c = 'r' ∨ c = 'n') (hletters : sortLetters operand = [])
    {env : Environment} (hread : env.readOperand operand = .ok text) (piped : Option String) :
    sort.execute (args ++ [operand]) piped env = (.ok (.text (Text.unlines
      (arrange ('n' ∈ sortFlags args) ('r' ∈ sortFlags args) (Text.lines text)))), env) := by
  have hsame := sortFlags_concat hletters args
  have hinput : Filter.input sort.usage env piped (sortFile (args ++ [operand])) = .ok text := by
    rw [sortFile_concat hletters]
    exact hread
  rw [execute_sort (hsame ▸ hflags) hinput, hsame]

/-- The commands that select lines of a file: the arguments in front of the file, and what they
choose of its lines. -/
inductive Picks : Command → List String → (List String → List String) → Prop
  | head {number : String} {n : Nat} (h : Number.count? number = some n) :
      Picks head ["-n", number] (List.take n)
  | tail {number : String} {n : Nat} (h : Number.count? number = some n) :
      Picks tail ["-n", number] (takeLast n)
  | sort : Picks sort [] (arrange false false)
  | sortReversed : Picks sort ["-r"] (arrange false true)
  | uniq : Picks uniq [] (uniqLines false)

namespace Picks

variable {cmd : Command} {args : List String} {choose : List String → List String}
  (h : cmd.Picks args choose)
include h

theorem subset (lines : List String) : choose lines ⊆ lines := by
  cases h with
  | head => exact List.take_subset ..
  | tail => exact takeLast_subset ..
  | sort | sortReversed => exact (perm_arrange ..).subset
  | uniq =>
    rw [uniqLines_false]
    exact fun line hline => ((firstOccurrences_eraseDups lines).mem_iff line).mp hline

theorem execute_eq {operand text : String} (hdash : operand.toList.head? ≠ some '-')
    {env : Environment} (hread : env.readOperand operand = .ok text) (piped : Option String) :
    cmd.execute (args ++ [operand]) piped env =
      (.ok (.text (Text.unlines (choose (Text.lines text)))), env) := by
  have hletters : sortLetters operand = [] := by
    rw [sortLetters, Text.after?_eq_none rfl hdash]
    rfl
  cases h with
  | head h => exact Prod.ext (select_of_count h hdash hread List.take _ piped) rfl
  | tail h => exact Prod.ext (select_of_count h hdash hread takeLast _ piped) rfl
  | sort => exact execute_sort_concat (List.forall_mem_nil _) hletters hread piped
  | sortReversed =>
    have hflags : sortFlags ["-r"] = ['r'] := by decide
    exact execute_sort_concat (by simp [hflags]) hletters hread piped
  | uniq =>
    have hflag : operand ≠ "-c" := Text.ne_of_head? rfl hdash
    have hinput : Filter.input Command.uniq.usage env piped (uniqFile ([] ++ [operand])) =
        .ok text := by
      have hfile : uniqFile ([] ++ [operand]) = some operand := by simp [uniqFile, hflag]
      rw [hfile]
      exact hread
    have hplain : decide ("-c" ∈ [] ++ [operand]) = false := by simp [Ne.symm hflag]
    exact Prod.ext ((uniq_eq hinput).trans (by rw [hplain])) rfl

theorem minArgs_eq : cmd.minArgs = 0 := by
  cases h <;> rfl

end Picks

end Command

namespace Registry

/-- Where the command is enabled, the line gives back the lines that it picks. -/
theorem run_picks {names : List String} {cmd : Command} {args : List String}
    {choose : List String → List String} (hpicks : cmd.Picks args choose) {word : String}
    (hword : word.toLower = cmd.name)
    (henabled : (builtin.restrict names).isEnabled word = true) {operand text : String}
    (hdash : operand.toList.head? ≠ some '-') {env : Environment}
    (hread : env.readOperand operand = .ok text) :
    (builtin.restrict names).run { stages := [word :: (args ++ [operand])] } none env =
      (.ok (.text (Text.unlines (choose (Text.lines text)))), env) := by
  have hcmd := get?_of_isEnabled hword henabled
  have hargs : stageArgs (word :: (args ++ [operand])) = args ++ [operand] :=
    stageArgs_of_toLower hword _
  have harity : checkArity cmd (stageArgs (word :: (args ++ [operand]))) = .ok () := by
    simp [checkArity, hpicks.minArgs_eq]
  rw [run_singleton, dispatch_of_checkArity hcmd harity, hargs, hpicks.execute_eq hdash hread]

end Registry

namespace Session

variable {s : Session} {line : String}

/-- A report adds one message below for each task that it completes. -/
theorem exists_tasks_report (s : Session) (lines : List OutputLine) (event : CommandEvent) :
    ∃ tasks : List String, (s.report lines event).1.lines =
      lines ++ tasks.map fun task => .notice ("task complete: " ++ task) := by
  let title (id : String) : String :=
    let description := (s.board.description? id).getD ""
    if description = "" then id else description
  let ids := (s.board.observe event s.tree).1 ++
    (s.watchers.map fun watcher => watcher.observe event s.tree).flatMap Prod.fst
  refine ⟨ids.map title, congrArg (lines ++ ·) ?_⟩
  rw [List.map_map]
  rfl

/-- The lines that a command picks of a file are shown below the echo, and the messages of tasks
follow. Of the picked lines the last one is missing if it is empty, and the lines in front of it
are without the carriage returns at their ends; so all of them are shown just if there is no such
line among them. -/
theorem submit_shows_selection {lesson : Lesson} (h : Reachable lesson s)
    (hcommands : s.takesCommands = true) {cmd : Command} {args : List String}
    {choose : List String → List String} (hpicks : cmd.Picks args choose) {word : String}
    (hword : word.toLower = cmd.name) (henabled : s.registry.isEnabled word = true)
    {file : String} (hdash : file.toList.head? ≠ some '-')
    (hparse : ParsedLine.parse (Text.trim line) = .ok { stages := [word :: (args ++ [file])] })
    {content : String} (hread : s.tree.readFrom s.cwd file = .ok content) (now : Timestamp) :
    (∃ tasks : List String, (s.submit line now).1.lines =
      .echo (s.prompt ++ " " ++ Text.trim line) ::
        ((Text.rejoin (choose (Text.lines content))).map .output ++
          tasks.map fun task => .notice ("task complete: " ++ task))) ∧
    (Text.rejoin (choose (Text.lines content)) = choose (Text.lines content) ↔
      Text.Kept (choose (Text.lines content))) ∧
    (Text.rejoin (choose (Text.lines content))).length =
      if (choose (Text.lines content)).getLast? = some "" then
        (choose (Text.lines content)).length - 1
      else (choose (Text.lines content)).length := by
  refine ⟨?_, Text.rejoin_eq_self_iff, Text.length_rejoin _⟩
  have hregistry := registry_of_reachable h
  rw [hregistry] at henabled
  have hopened : ((s.logged (Text.trim line)).environment now).readOperand file = .ok content :=
    hread
  have hran : ((s.logged (Text.trim line)).run { stages := [word :: (args ++ [file])] } now).1 =
      .ok (.text (Text.unlines (choose (Text.lines content)))) := by
    rw [run_eq]
    show (s.registry.run _ none ((s.logged (Text.trim line)).environment now)).1 = _
    rw [hregistry, Registry.run_picks hpicks hword henabled hdash hopened]
  have hshown : Text.lines (Text.unlines (choose (Text.lines content))) =
      Text.rejoin (choose (Text.lines content)) :=
    Text.lines_unlines fun picked hpicked =>
      Text.not_feed_of_mem_lines (hpicks.subset (Text.lines content) hpicked)
  have hline : Text.trim line ≠ "" := ne_empty_of_parse hparse (by simp)
  rw [submit_of_takesCommands hcommands, if_neg hline, command_of_run_ok hparse s _ hran, present,
    hshown]
  exact exists_tasks_report ..

theorem submit_shows_selection_of_list :
    ∃ s : Session,
      Reachable { Lesson.blank with tree := [.file "list" "b\n\na\nb\n"] } s ∧
      s.tree.readFrom s.cwd "list" = .ok "b\n\na\nb\n" ∧
      ∃ tasks : List String, (s.submit " UNIQ list" ⟨1⟩).1.lines =
        .echo "quest@linux:~$ UNIQ list" :: ([.output "b", .output "", .output "a"] ++
          tasks.map fun task => .notice ("task complete: " ++ task)) := by
  have hrun : ((ofLesson { Lesson.blank with tree := [.file "list" "b\n\na\nb\n"] }
      ⟨0⟩).toOption.map fun s =>
        (s.prompt, s.takesCommands, s.registry.isEnabled "UNIQ", s.tree.readFrom s.cwd "list")) =
      some ("quest@linux:~$", true, true, .ok "b\n\na\nb\n") := by
    decide +kernel
  obtain ⟨s, hs, hseen⟩ := exists_start hrun
  simp only [Prod.mk.injEq] at hseen
  obtain ⟨hprompt, hcommands, henabled, hread⟩ := hseen
  have hparse : ParsedLine.parse (Text.trim " UNIQ list") =
      .ok { stages := ["UNIQ" :: ([] ++ ["list"])] } := by
    decide +kernel
  obtain ⟨⟨tasks, hlines⟩, -⟩ := submit_shows_selection hs hcommands Command.Picks.uniq
    (by decide +kernel) henabled (by decide) hparse hread ⟨1⟩
  refine ⟨s, hs, hread, tasks, hlines.trans ?_⟩
  have hpicked : Text.rejoin (Filter.uniqLines false (Text.lines "b\n\na\nb\n")) =
      ["b", "", "a"] := by
    rw [Filter.uniqLines_false]
    decide +kernel
  have htrim : Text.trim " UNIQ list" = "UNIQ list" := by decide +kernel
  rw [hpicked, htrim, hprompt]
  rfl

/-- An empty line that is picked last is not shown. -/
theorem submit_hides_last_line :
    ∃ s : Session, Reachable { Lesson.blank with tree := [.file "f" "a\n\nb"] } s ∧
      s.tree.readFrom s.cwd "f" = .ok "a\n\nb" ∧
      (Text.lines "a\n\nb").take 2 = ["a", ""] ∧
      (s.submit "head -n 2 f" ⟨1⟩).1.lines = [.echo "quest@linux:~$ head -n 2 f", .output "a"] := by
  have hrun : ((ofLesson { Lesson.blank with tree := [.file "f" "a\n\nb"] } ⟨0⟩).toOption.map
      fun s => (s.tree.readFrom s.cwd "f", (s.submit "head -n 2 f" ⟨1⟩).1.lines)) =
      some (.ok "a\n\nb", [.echo "quest@linux:~$ head -n 2 f", .output "a"]) := by
    decide +kernel
  obtain ⟨s, hs, hseen⟩ := exists_start hrun
  obtain ⟨hread, hlines⟩ := Prod.mk.inj hseen
  exact ⟨s, hs, hread, by decide, hlines⟩

end Session

end ShellTutor

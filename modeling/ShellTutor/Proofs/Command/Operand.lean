import ShellTutor.Proofs.Command.Crash
import ShellTutor.Proofs.Command.Splice

/-!
# Piped input and a named file

A filter whose arguments name no file reads what is piped in. With a file added at the end of the
same arguments it reads that file, and all else that the arguments say stays as it was, provided
that the added word is taken for a file: it must not look like a flag, nor be taken for the value of
a flag in front of it, nor for the second of two lone quotes. What `cat` hands on are the lines that
are not empty, so a filter behind it does what it does with a file of these lines.
-/

namespace ShellTutor

theorem Text.after?_eq_none {lead text : String} {c : Char} (hlead : lead.toList.head? = some c)
    (htext : text.toList.head? ≠ some c) : after? lead text = none := by
  refine if_neg fun hstarts => htext ?_
  obtain ⟨rest, hrest⟩ := List.isPrefixOf_iff_prefix.mp hstarts
  rw [← hrest, List.head?_append, hlead]
  rfl

/-- A word that starts with another character is not the same word. -/
theorem Text.ne_of_head? {word text : String} {c : Char} (hword : word.toList.head? = some c)
    (htext : text.toList.head? ≠ some c) : text ≠ word := by
  rintro rfl
  exact htext hword

namespace Filter

open Text (after?_eq_none ne_of_head?)

/-- Whether a flag still waits for its value. -/
def CutWord.isValue : CutWord → Bool
  | .delimiter | .fields => true
  | .any | .closing _ => false

section Operand

variable {operand : String} (hdash : operand.toList.head? ≠ some '-')
include hdash

theorem SelectOptions.word_operand {o : SelectOptions} (h : o.awaitsCount = false) :
    o.word operand = .ok { o with file := some operand } := by
  have hflag : operand ≠ "-n" := ne_of_head? rfl hdash
  have hlong : Text.after? "-n" operand = none := after?_eq_none rfl hdash
  have hshort : Text.after? "-" operand = none := after?_eq_none rfl hdash
  simp [word, h, hflag, hlong, hshort]

theorem CountOptions.word_operand (o : CountOptions) :
    o.word operand = { o with file := some operand } := by
  have hlines : operand ≠ "-l" := ne_of_head? rfl hdash
  have hwords : operand ≠ "-w" := ne_of_head? rfl hdash
  have hchars : operand ≠ "-c" := ne_of_head? rfl hdash
  simp [word, hlines, hwords, hchars]

theorem SortOptions.word_operand (o : SortOptions) :
    o.word operand = .ok { o with file := some operand } := by
  have hflag : Text.after? "-" operand = none := after?_eq_none rfl hdash
  simp [word, hflag]

theorem UniqOptions.word_operand (o : UniqOptions) :
    o.word operand = { o with file := some operand } :=
  if_neg (ne_of_head? rfl hdash)

theorem CutOptions.freeWord_operand (o : CutOptions) :
    o.freeWord operand = { o with file := some operand, expected := .any } := by
  have hdelimiter : Text.after? "-d" operand = none := after?_eq_none rfl hdash
  have hfields : Text.after? "-f" operand = none := after?_eq_none rfl hdash
  simp [freeWord, hdelimiter, hfields]

theorem CutOptions.word_operand {o : CutOptions} (hvalue : o.expected.isValue = false)
    (hquote : o.expected ≠ .closing operand) :
    o.word operand = { o with file := some operand, expected := .any } := by
  rw [word]
  split <;> rename_i hexpected
  · exact freeWord_operand hdash o
  · rw [hexpected] at hvalue
    cases hvalue
  · rw [hexpected] at hvalue
    cases hvalue
  · rename_i quote
    have hne : operand ≠ quote := by
      rintro rfl
      exact hquote hexpected
    rw [if_neg hne, freeWord_operand hdash]

end Operand

section Quote

variable {o : CutOptions} {quote : String}

theorem CutOptions.quote_of_withDelimiter {value : String}
    (h : (o.withDelimiter value).expected = .closing quote) : quote = "\"" ∨ quote = "'" := by
  rw [withDelimiter] at h
  split_ifs at h with hvalue
  cases h
  exact hvalue

theorem CutOptions.quote_of_freeWord {arg : String}
    (h : (o.freeWord arg).expected = .closing quote) : quote = "\"" ∨ quote = "'" := by
  rw [freeWord] at h
  split at h
  · split_ifs at h
    exact quote_of_withDelimiter h
  · split_ifs at h
  · cases h

/-- Only a lone quote makes `cut` expect another one. -/
theorem CutOptions.quote_of_word {arg : String} (h : (o.word arg).expected = .closing quote) :
    quote = "\"" ∨ quote = "'" := by
  rw [word] at h
  split at h
  · exact quote_of_freeWord h
  · exact quote_of_withDelimiter h
  · cases h
  · split_ifs at h
    exact quote_of_freeWord h

theorem CutOptions.quote_of_foldl {args : List String}
    (h : (args.foldl word {}).expected = .closing quote) : quote = "\"" ∨ quote = "'" := by
  obtain rfl | ⟨init, last, rfl⟩ := args.eq_nil_or_concat
  · cases h
  · rw [List.concat_eq_append, List.foldl_concat] at h
    exact quote_of_word h

end Quote

theorem CutOptions.finish_eq_self {o : CutOptions} (h : o.expected.isValue = false) :
    o.finish = o := by
  unfold finish
  split
  · simp_all [CutWord.isValue]
  · simp_all [CutWord.isValue]
  · rfl

theorem CutOptions.parse_operand {args : List String} {operand : String}
    (hdash : operand.toList.head? ≠ some '-') (hquote : operand ≠ "\"" ∧ operand ≠ "'")
    (hvalue : (args.foldl word {}).expected.isValue = false) :
    parse (args ++ [operand]) = { parse args with file := some operand, expected := .any } := by
  have hclosing : (args.foldl word {}).expected ≠ .closing operand := by
    intro h
    rcases quote_of_foldl h with heq | heq
    · exact hquote.1 heq
    · exact hquote.2 heq
  rw [parse, parse, List.foldl_concat, word_operand hdash hvalue hclosing, finish_eq_self rfl,
    finish_eq_self hvalue]

section Appended

variable {usage operand text : String} {args : List String} {env env' : Environment}
  (hdash : operand.toList.head? ≠ some '-') (hread : env.readOperand operand = .ok text)
  (piped : Option String)
include hdash hread

theorem select_operand (choose : Nat → List String → List String)
    (h : ∀ o, args.foldlM SelectOptions.word {} = .ok o → o.file = none ∧ o.awaitsCount = false) :
    select choose usage (args ++ [operand]) piped env =
      select choose usage args (some text) env' := by
  unfold select SelectOptions.parse
  rw [List.foldlM_append]
  cases hwords : args.foldlM SelectOptions.word {} with
  | error e => rfl
  | ok o =>
    obtain ⟨hfile, hcount⟩ := h o hwords
    simp [SelectOptions.word_operand hdash hcount, hcount, hfile, input, hread]

theorem count_operand (h : (args.foldl CountOptions.word {}).file = none) :
    count usage (args ++ [operand]) piped env = count usage args (some text) env' := by
  unfold count
  rw [List.foldl_concat, CountOptions.word_operand hdash]
  simp [h, input, hread]

theorem sort_operand (h : ∀ o, args.foldlM SortOptions.word {} = .ok o → o.file = none) :
    sort usage (args ++ [operand]) piped env = sort usage args (some text) env' := by
  unfold sort
  rw [List.foldlM_append]
  cases hwords : args.foldlM SortOptions.word {} with
  | error e => rfl
  | ok o => simp [SortOptions.word_operand hdash, h o hwords, input, hread]

theorem sortCrashes_operand (h : ∀ o, args.foldlM SortOptions.word {} = .ok o → o.file = none) :
    sortCrashes usage (args ++ [operand]) piped env = sortCrashes usage args (some text) env' := by
  unfold sortCrashes
  rw [List.foldlM_append]
  cases hwords : args.foldlM SortOptions.word {} with
  | error e => rfl
  | ok o => simp [SortOptions.word_operand hdash, h o hwords, input, hread]

theorem uniq_operand (h : (args.foldl UniqOptions.word {}).file = none) :
    uniq usage (args ++ [operand]) piped env = uniq usage args (some text) env' := by
  unfold uniq
  rw [List.foldl_concat, UniqOptions.word_operand hdash]
  simp [h, input, hread]

theorem cut_operand (hquote : operand ≠ "\"" ∧ operand ≠ "'")
    (hfile : (args.foldl CutOptions.word {}).file = none)
    (hvalue : (args.foldl CutOptions.word {}).expected.isValue = false) :
    cut usage (args ++ [operand]) piped env = cut usage args (some text) env' := by
  have hnone : (CutOptions.parse args).file = none := by
    rw [CutOptions.parse, CutOptions.finish_eq_self hvalue, hfile]
  unfold cut
  rw [CutOptions.parse_operand hdash hquote hvalue]
  simp [hnone, input, hread]

end Appended

end Filter

namespace Command

/-- Arguments with which a filter reads what is piped in: they name no file, and no flag is left
without its value. The pattern of `grep` comes before its file, so `grep` is not among these
filters. -/
def ReadsPiped : Command → List String → Prop
  | .head, args | .tail, args =>
    ∀ o, args.foldlM Filter.SelectOptions.word {} = .ok o → o.file = none ∧ o.awaitsCount = false
  | .wc, args => (args.foldl Filter.CountOptions.word {}).file = none
  | .sort, args => ∀ o, args.foldlM Filter.SortOptions.word {} = .ok o → o.file = none
  | .uniq, args => (args.foldl Filter.UniqOptions.word {}).file = none
  | .cut, args =>
    (args.foldl Filter.CutOptions.word {}).file = none ∧
      (args.foldl Filter.CutOptions.word {}).expected.isValue = false
  | _, _ => False

variable {cmd : Command} {args : List String}

theorem ReadsPiped.role (h : cmd.ReadsPiped args) : cmd.role = .filter ∧ cmd.minArgs = 0 := by
  cases cmd with
  | head | tail | wc | sort | uniq | cut => exact ⟨rfl, rfl⟩
  | _ => exact h.elim

/-- Such a filter gives back text. -/
theorem ReadsPiped.text_of_execute (h : cmd.ReadsPiped args) {more : List String}
    {piped : Option String} {env : Environment} {out : CommandOutput}
    (hout : (cmd.execute more piped env).1 = .ok out) : ∃ text, out = .text text := by
  cases cmd with
  | head | tail =>
    obtain ⟨o, -, hout⟩ := Outcome.bind_eq_ok.mp hout
    obtain ⟨text, -, hout⟩ := Outcome.bind_eq_ok.mp hout
    cases hout
    exact ⟨_, rfl⟩
  | wc | uniq =>
    obtain ⟨text, -, hout⟩ := Outcome.bind_eq_ok.mp hout
    cases hout
    exact ⟨_, rfl⟩
  | sort =>
    obtain ⟨o, -, hout⟩ := Outcome.bind_eq_ok.mp hout
    obtain ⟨text, -, hout⟩ := Outcome.bind_eq_ok.mp hout
    cases hout
    exact ⟨_, rfl⟩
  | cut =>
    simp only [execute, Filter.cut] at hout
    split_ifs at hout
    · cases hout
    · split at hout
      · cases hout
      · obtain ⟨text, -, hout⟩ := Outcome.bind_eq_ok.mp hout
        cases hout
        exact ⟨_, rfl⟩
  | _ => exact h.elim

/-- A file named at the end of the arguments is read as if it were piped in. -/
theorem ReadsPiped.execute_operand (h : cmd.ReadsPiped args) {operand text : String}
    {env : Environment} (hdash : operand.toList.head? ≠ some '-')
    (hquote : operand ≠ "\"" ∧ operand ≠ "'") (hread : env.readOperand operand = .ok text)
    (piped : Option String) :
    (cmd.execute (args ++ [operand]) piped env).1 = (cmd.execute args (some text) env).1 := by
  cases cmd with
  | head => exact Filter.select_operand hdash hread piped List.take h
  | tail => exact Filter.select_operand hdash hread piped Filter.takeLast h
  | wc => exact Filter.count_operand hdash hread piped h
  | sort => exact Filter.sort_operand hdash hread piped h
  | uniq => exact Filter.uniq_operand hdash hread piped h
  | cut => exact Filter.cut_operand hdash hread piped hquote h.1 h.2
  | _ => exact h.elim

theorem ReadsPiped.crashes_operand (h : cmd.ReadsPiped args) {operand text : String}
    {env : Environment} (hdash : operand.toList.head? ≠ some '-')
    (hread : env.readOperand operand = .ok text) (piped : Option String) :
    cmd.crashes (args ++ [operand]) piped env = cmd.crashes args (some text) env := by
  cases cmd with
  | sort => exact Filter.sortCrashes_operand hdash hread piped h
  | _ => rfl

/-- Such a filter only crashes on what is piped in. -/
theorem ReadsPiped.mayCrash (h : cmd.ReadsPiped args) {text : String} {env : Environment}
    (hcrash : cmd.crashes args (some text) env = true) :
    cmd = .sort ∧ Filter.MayCrash text := by
  cases cmd with
  | sort =>
    obtain ⟨o, read, hwords, hinput, hmay⟩ := Filter.mayCrash_of_sortCrashes hcrash
    rw [h o hwords] at hinput
    cases hinput
    exact ⟨rfl, hmay⟩
  | _ => cases hcrash

end Command

namespace Registry

variable {reg : Registry}

theorem pipedInput_eq_ok {data : String} (h : ∃ line ∈ Text.lines data, line ≠ "") :
    pipedInput data = .ok (Text.unlines ((Text.lines data).filter (· ≠ ""))) := by
  obtain ⟨line, hline, hne⟩ := h
  have hmem : line ∈ (Text.lines data).filter (· ≠ "") :=
    List.mem_filter.mpr ⟨hline, decide_eq_true hne⟩
  refine if_neg ?_
  rw [List.isEmpty_iff]
  exact List.ne_nil_of_mem hmem

section Filter

variable {cmd : Command} (hcmd : reg.get? cmd.name = some cmd)
  (hrole : cmd.role = .filter ∧ cmd.minArgs = 0)
include hcmd hrole

theorem prepareStage_filter (args : List String) {data text : String}
    (hdata : pipedInput data = .ok text) :
    reg.prepareStage (some data) (cmd.name :: args) = .ok (cmd, args, some text) := by
  rw [prepareStage_eq, resolveStage_of_get? hcmd, stageArgs_name]
  simp [hrole.1, hrole.2, allowedAt, checkArity, stageInput, hdata]

/-- A filter behind another stage works on the lines that this one hands on. -/
theorem runStage_filter (args : List String) {data text : String}
    (hdata : pipedInput data = .ok text) (env : Environment) :
    (reg.runStage (some data) (cmd.name :: args) env).1 =
      (cmd.execute args (some text) env).1.map CommandOutput.data := by
  rw [runStage, prepareStage_filter hcmd hrole args hdata]

theorem stageCrashes_filter (args : List String) {data text : String}
    (hdata : pipedInput data = .ok text) (env : Environment) :
    reg.stageCrashes (some data) (cmd.name :: args) env = cmd.crashes args (some text) env :=
  stageCrashes_of_prepareStage (prepareStage_filter hcmd hrole args hdata) env

theorem crashes_filter (args : List String) (piped : Option String) (env : Environment) :
    reg.crashes ⟨[cmd.name :: args], none⟩ piped env = cmd.crashes args piped env := by
  have harity : checkArity cmd (stageArgs (cmd.name :: args)) = .ok () := by
    simp [checkArity, hrole.2]
  have hstage := dispatchCrashes_of_checkArity hcmd harity piped env
  rwa [stageArgs_name] at hstage

/-- Behind `cat` a filter crashes on the lines that it is given, and `cat` itself does not. -/
theorem crashes_cat_filter (hcat : reg.get? "cat" = some .cat) (args : List String)
    {file content text : String} (hfile : file ≠ "-n") {env : Environment}
    (hread : env.readOperand file = .ok content) (htext : pipedInput content = .ok text)
    (piped : Option String) :
    reg.crashes ⟨[["cat", file], cmd.name :: args], none⟩ piped env =
      cmd.crashes args (some text) env := by
  have hfirst : reg.stageCrashes none ["cat", file] env = false :=
    stageCrashes_of_prepareStage (prepareStage_cat hcat file) env
  rw [crashes_of_isPipeline reg rfl rfl, stagesCrash_cons, hfirst, runStage_cat hcat hfile hread,
    Bool.false_or]
  change reg.stagesCrash (some content) [cmd.name :: args] env = _
  rw [stagesCrash_cons, stageCrashes_filter hcmd hrole args htext]
  cases (reg.runStage (some content) (cmd.name :: args) env).1 with
  | error cause => exact Bool.or_false _
  | ok next => exact Bool.or_false _

/-- A filter on its own leaves everything as it is. -/
theorem run_filter (args : List String) (piped : Option String) (env : Environment) :
    reg.run ⟨[cmd.name :: args], none⟩ piped env = ((cmd.execute args piped env).1, env) := by
  have harity : checkArity cmd (stageArgs (cmd.name :: args)) = .ok () := by
    simp [checkArity, hrole.2]
  have hplace : cmd.role ≠ .standalone := by simp [hrole.1]
  rw [run_singleton, dispatch_of_checkArity hcmd harity, stageArgs_name]
  exact Prod.ext rfl (Command.execute_env hplace args piped env)

end Filter

/-- A filter does with piped lines what it does with a file of these lines. Without a file among its
arguments it may stand behind `cat`, or the file may be added to its arguments: both ways give the
same text, or fail for the same cause, or crash, which takes a `sort` and lines with a `nan`. -/
theorem run_piped_or_named {names : List String} {cmd : Command}
    (hcat : (builtin.restrict names).isEnabled "cat" = true)
    (hcmd : (builtin.restrict names).isEnabled cmd.name = true) {args : List String}
    (hargs : cmd.ReadsPiped args) {file operand content : String} {env : Environment}
    (hfile : file ≠ "-n") (hdash : operand.toList.head? ≠ some '-')
    (hquote : operand ≠ "\"" ∧ operand ≠ "'") (hread : env.readOperand file = .ok content)
    (hline : ∃ line ∈ Text.lines content, line ≠ "")
    (hsame : env.readOperand operand =
      .ok (Text.unlines ((Text.lines content).filter (· ≠ "")))) (piped : Option String) :
    (∃ text,
      (builtin.restrict names).run? ⟨[["cat", file], cmd.name :: args], none⟩ piped env =
        some (.ok (.text text), env) ∧
      (builtin.restrict names).run? ⟨[cmd.name :: (args ++ [operand])], none⟩ piped env =
        some (.ok (.text text), env)) ∨
    (∃ cause,
      (builtin.restrict names).run? ⟨[["cat", file], cmd.name :: args], none⟩ piped env =
        some (.error (.pipelineAborted 2 cause), env) ∧
      (builtin.restrict names).run? ⟨[cmd.name :: (args ++ [operand])], none⟩ piped env =
        some (.error cause, env)) ∨
    ((builtin.restrict names).run? ⟨[["cat", file], cmd.name :: args], none⟩ piped env = none ∧
      (builtin.restrict names).run? ⟨[cmd.name :: (args ++ [operand])], none⟩ piped env = none ∧
      cmd = .sort ∧ Filter.MayCrash (Text.unlines ((Text.lines content).filter (· ≠ "")))) := by
  have hshow : (builtin.restrict names).get? "cat" = some .cat :=
    get?_of_isEnabled (toLower_name .cat) hcat
  have hfilter := get?_of_isEnabled (toLower_name cmd) hcmd
  generalize builtin.restrict names = reg at hshow hfilter ⊢
  have hstage := runStage_filter hfilter hargs.role args (pipedInput_eq_ok hline) env
  have hpipeline : (reg.runPipeline [["cat", file], cmd.name :: args] env).1 =
      (reg.runStages 2 (some content) [cmd.name :: args] env).1 := by
    rw [runPipeline, runStages_cons, runStage_cat hshow hfile hread]
  have hpiped : reg.crashes ⟨[["cat", file], cmd.name :: args], none⟩ piped env =
      cmd.crashes args (some (Text.unlines ((Text.lines content).filter (· ≠ "")))) env :=
    crashes_cat_filter hfilter hargs.role hshow args hfile hread (pipedInput_eq_ok hline) piped
  have hnamed : reg.crashes ⟨[cmd.name :: (args ++ [operand])], none⟩ piped env =
      cmd.crashes args (some (Text.unlines ((Text.lines content).filter (· ≠ "")))) env := by
    rw [crashes_filter hfilter hargs.role, hargs.crashes_operand hdash hsame]
  rw [run?, run?, hpiped, hnamed, run_of_isPipeline reg rfl rfl, hpipeline, runStages_cons, hstage,
    run_filter hfilter hargs.role, hargs.execute_operand hdash hquote hsame]
  generalize hlines : Text.unlines ((Text.lines content).filter (· ≠ "")) = lines
  cases hcrash : cmd.crashes args (some lines) env with
  | true => exact Or.inr (Or.inr ⟨rfl, rfl, hargs.mayCrash hcrash⟩)
  | false =>
    cases hout : (cmd.execute args (some lines) env).1 with
    | error cause =>
      have hplain := (cmd.own_execute _ _ _ cause hout).stageless
      refine Or.inr (Or.inl ⟨cause, ?_, rfl⟩)
      simp only [Outcome.map_error, hplain.inStage]
      rfl
    | ok out =>
      obtain ⟨text, rfl⟩ := hargs.text_of_execute hout
      exact Or.inl ⟨text, rfl, rfl⟩

theorem run_piped_or_named_of_cut_columns :
    ∃ (env : Environment) (text : String),
      (builtin.restrict ["Cut", "cat"]).run?
        ⟨[["cat", "f"], ["cut", "-d", ",", "-f", "2"]], none⟩ none env =
          some (.ok (.text text), env) ∧
      (builtin.restrict ["Cut", "cat"]).run? ⟨[["cut", "-d", ",", "-f", "2", "./g"]], none⟩ none
        env = some (.ok (.text text), env) := by
  generalize hcontent : "a,b\n\nc,d\n" = content
  generalize hlines : "a,b\nc,d" = lines
  generalize hnodes : [("/f", (⟨.fileDefault, "quest", "quest", ⟨0⟩, .file content⟩ : Node)),
    ("/g", ⟨.fileDefault, "quest", "quest", ⟨0⟩, .file lines⟩)] = nodes
  generalize henv : (⟨"/", "/", "quest", ⟨nodes, "quest", "quest"⟩, {}, [], ⟨60⟩⟩ : Environment) =
    env
  generalize hnames : ["Cut", "cat"] = names
  have hcat : (builtin.restrict names).isEnabled "cat" = true := by
    subst hnames
    decide +kernel
  have hcut : (builtin.restrict names).isEnabled Command.cut.name = true := by
    have hfind : (builtin.restrict names).find? Command.cut.name = some .cut := rfl
    rw [isEnabled_of_find? hfind]
    subst hnames
    decide +kernel
  have hread : env.readOperand "f" = .ok content := by
    rw [← Outcome.toOption_eq_some_iff]
    subst henv hnodes hcontent hlines
    decide +kernel
  have hline : ∃ line ∈ Text.lines content, line ≠ "" := by
    subst hcontent
    exact ⟨"a,b", by decide +kernel, by decide⟩
  have hjoined : Text.unlines ((Text.lines content).filter (· ≠ "")) = lines := by
    subst hcontent hlines
    decide +kernel
  have hsame : env.readOperand "./g" =
      .ok (Text.unlines ((Text.lines content).filter (· ≠ ""))) := by
    rw [hjoined, ← Outcome.toOption_eq_some_iff]
    subst henv hnodes hcontent hlines
    decide +kernel
  have hworks : (Command.cut.execute (["-d", ",", "-f", "2"] ++ ["./g"]) none
      env).1.toOption.isSome = true := by
    subst henv hnodes hcontent hlines
    decide +kernel
  have hargs : Command.cut.ReadsPiped ["-d", ",", "-f", "2"] := ⟨by decide, by decide⟩
  rcases run_piped_or_named hcat hcut hargs (by decide) (by decide) (by decide) hread hline hsame
    none with ⟨text, hpiped, hnamed⟩ | ⟨cause, -, hnamed⟩ | ⟨-, -, hsort, -⟩
  · exact ⟨env, text, hpiped, hnamed⟩
  · have hfilter := get?_of_isEnabled (toLower_name .cut) hcut
    have hcrash := crashes_filter hfilter ⟨rfl, rfl⟩ (["-d", ",", "-f", "2"] ++ ["./g"]) none env
    rw [run?, hcrash, run_filter hfilter ⟨rfl, rfl⟩] at hnamed
    have hfails := congrArg Prod.fst (Option.some.inj hnamed)
    rw [hfails] at hworks
    cases hworks
  · cases hsort

/-- With a `nan` among many lines neither way gives a text or an error. -/
theorem sort_crashes_piped_or_named :
    ∃ (env : Environment) (text : String),
      Command.sort.ReadsPiped ["-n"] ∧ env.readOperand "f" = .ok text ∧
      env.readOperand "g" = .ok (Text.unlines ((Text.lines text).filter (· ≠ ""))) ∧
      builtin.run? ⟨[["cat", "f"], ["sort", "-n"]], none⟩ none env = none ∧
      builtin.run? ⟨[["sort", "-n", "g"]], none⟩ none env = none := by
  obtain ⟨text, htext⟩ : ∃ text, text =
      "6\n5\n5\n5\n5\n5\n5\n5\n5\n5\nnan\n1\n1\n1\n1\n1\n1\n1\n1\n1\n1" := ⟨_, rfl⟩
  refine ⟨⟨"/", "/", "quest", ⟨[("/f", ⟨.fileDefault, "quest", "quest", ⟨0⟩, .file text⟩),
    ("/g", ⟨.fileDefault, "quest", "quest", ⟨0⟩, .file text⟩)], "quest", "quest"⟩, {}, [], ⟨0⟩⟩,
    text, ?_, ?_, ?_, ?_, ?_⟩
  · rintro o ho
    cases ho
    rfl
  all_goals
    subst htext
    decide +kernel

end Registry

end ShellTutor

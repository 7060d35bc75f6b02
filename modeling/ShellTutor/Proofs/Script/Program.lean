import ShellTutor.Proofs.Script.Walk

/-!
# Scripts of assignments and echoes

For scripts that only assign and print, walking through the lines is running them. Such a script is
a list of statements, and what a reference in it stands for is told by the statements in front of
it: the last assignment to its name counts, and where there is none, what the session knows.
-/

namespace ShellTutor.Script

/-- A part of a printed text: plain text, or a reference to a variable, with or without braces. -/
inductive Piece where
  | plain (text : String)
  | bare (name : String)
  | braced (name : String)
  deriving DecidableEq, Repr

namespace Piece

/-- How a piece is spelled. -/
def chars : Piece → List Char
  | plain text => text.toList
  | bare name => '$' :: name.toList
  | braced name => '$' :: '\x7b' :: (name.toList ++ ['\x7d'])

/-- What a piece stands for. -/
def meaning (value : String → String) : Piece → List Char
  | plain text => text.toList
  | bare name | braced name => (value name).toList

/-- Whether a piece is read as one in front of other text. A name without braces must not go on
there. -/
def ReadBefore (after : List Char) : Piece → Prop
  | plain text => '$' ∉ text.toList
  | bare name => IsName name.toList ∧ ∀ c ∈ after.head?, isNameChar c = false
  | braced name => IsName name.toList

instance (after : List Char) : (piece : Piece) → Decidable (piece.ReadBefore after)
  | plain _ => inferInstanceAs (Decidable (_ ∉ _))
  | bare _ =>
    have := Option.decidableForallMem (p := fun c => isNameChar c = false) after.head?
    inferInstanceAs (Decidable (_ ∧ _))
  | braced _ => inferInstanceAs (Decidable (IsName _))

end Piece

/-- How a text of several pieces is spelled. -/
def spelled (pieces : List Piece) : List Char :=
  pieces.flatMap Piece.chars

/-- What a text of several pieces stands for. -/
def meaning (value : String → String) (pieces : List Piece) : List Char :=
  pieces.flatMap (Piece.meaning value)

/-- Each piece is read as one. -/
def AllRead : List Piece → Prop
  | [] => True
  | piece :: rest => piece.ReadBefore (spelled rest) ∧ AllRead rest

instance decidableAllRead : (pieces : List Piece) → Decidable (AllRead pieces)
  | [] => isTrue trivial
  | _ :: rest =>
    have := decidableAllRead rest
    inferInstanceAs (Decidable (_ ∧ _))

/-- A line of a script: a blank line or a comment, an assignment, or an `echo` with the blanks in
front of its text. -/
inductive Statement where
  | remark (text : String)
  | assign (name value : String)
  | echo (gap : String) (pieces : List Piece)
  deriving DecidableEq, Repr

namespace Statement

/-- How a statement is spelled. -/
def chars : Statement → List Char
  | remark text => text.toList
  | assign name value => name.toList ++ '=' :: value.toList
  | echo gap pieces => "echo".toList ++ (gap.toList ++ spelled pieces)

def WellFormed : Statement → Prop
  | remark text => text = "" ∨ text.toList.head? = some '#'
  | assign name value =>
    isIdentifier name.toList = true ∧ ∀ c ∈ ['$', ';', '\x22'], c ∉ value.toList
  | echo gap pieces =>
    (∀ c ∈ gap.toList, Text.isBlank c = true) ∧ (gap = "" → spelled pieces = []) ∧
      (∀ c ∈ (spelled pieces).head?, Text.isBlank c = false) ∧ '\x22' ∉ spelled pieces ∧
      AllRead pieces

instance : (s : Statement) → Decidable s.WellFormed
  | remark _ => inferInstanceAs (Decidable (_ ∨ _))
  | assign _ value =>
    have := List.decidableBAll (· ∉ value.toList) ['$', ';', '\x22']
    inferInstanceAs (Decidable (_ ∧ _))
  | echo gap pieces =>
    have := List.decidableBAll (fun c => Text.isBlank c = true) gap.toList
    have := Option.decidableForallMem (p := fun c => Text.isBlank c = false) (spelled pieces).head?
    inferInstanceAs (Decidable (_ ∧ _ ∧ _ ∧ _ ∧ _))

def isEcho : Statement → Bool
  | echo _ _ => true
  | _ => false

/-- The name and the value of an assignment. -/
def assigned? : Statement → Option (String × String)
  | assign name value => some (name, value)
  | _ => none

/-- What an `echo` prints. -/
def printed? (value : String → String) : Statement → Option String
  | echo _ pieces => some (String.ofList (meaning value pieces))
  | _ => none

end Statement

/-- The names that a list of statements assigns to, and the values, in order. -/
def assignments (statements : List Statement) : List (String × String) :=
  statements.filterMap Statement.assigned?

/-- The variables after some assignments. -/
def assignAll (vars : Variables) (pairs : List (String × String)) : Variables :=
  pairs.foldl (fun vars pair => vars.set pair.1 pair.2) vars

/-- What a session knows without an assignment. -/
def known (env : Environment) (name : String) : String :=
  if name = "USER" then env.user
  else if name = "HOME" then env.home
  else if name = "PWD" then env.cwd
  else ""

/-- The value that a name has behind some statements: the one assigned to it last, there or earlier
in the session, else what the session knows. -/
def valueAfter (env : Environment) (before : List Statement) (name : String) : String :=
  (((assignments before).reverse.lookup name).or (env.vars.get? name)).getD (known env name)

/-- What statements print that follow others. -/
def printedAfter (env : Environment) (before : List Statement) : List Statement → List String
  | [] => []
  | s :: rest =>
    (s.printed? (valueAfter env before)).toList ++ printedAfter env (before ++ [s]) rest

section Texts

variable {value : String → String} {pieces : List Piece}

theorem substitute_piece {piece : Piece} {after : List Char} (h : piece.ReadBefore after) :
    substitute value (piece.chars ++ after) = piece.meaning value ++ substitute value after := by
  cases piece with
  | plain text => exact substitute_append_of_inert (inert_of_not_mem h) after
  | bare name => exact substitute_bare h.1 h.2
  | braced name =>
    rw [Piece.chars, List.cons_append, List.cons_append, List.append_assoc, List.singleton_append]
    exact substitute_braced h after

theorem substitute_spelled (h : AllRead pieces) :
    substitute value (spelled pieces) = meaning value pieces := by
  induction pieces with
  | nil => rw [spelled, List.flatMap_nil, substitute]; rfl
  | cons piece rest ih =>
    rw [spelled, List.flatMap_cons, meaning, List.flatMap_cons]
    exact (substitute_piece h.1).trans (congrArg _ (ih h.2))

/-- No piece spells the start of a command whose output is put in. -/
theorem not_command_infix (h : AllRead pieces) : ¬ ['$', '('] <:+: spelled pieces := by
  induction pieces with
  | nil => exact fun hinfix => absurd (List.infix_nil.mp hinfix) (by simp)
  | cons piece rest ih =>
    obtain ⟨hpiece, hrest⟩ := h
    intro hinfix
    rw [spelled, List.flatMap_cons] at hinfix
    refine ih hrest ?_
    cases piece with
    | plain text => exact Text.infix_of_infix_append hpiece hinfix
    | bare name =>
      rw [Piece.chars, List.cons_append, List.infix_cons_iff] at hinfix
      rcases hinfix with hfirst | hlater
      · obtain ⟨c, more, hmore⟩ := List.exists_cons_of_ne_nil hpiece.1.ne_nil
        rw [hmore] at hfirst
        have hopen : '(' = c := by simpa [List.cons_prefix_cons] using hfirst
        have hchar := hpiece.1.chars c (hmore ▸ List.mem_cons_self ..)
        rw [← hopen] at hchar
        exact absurd hchar (by decide)
      · exact Text.infix_of_infix_append (hpiece.1.not_mem (by decide)) hlater
    | braced name =>
      have hdollar : '$' ∉ name.toList := IsName.not_mem hpiece (by decide)
      rw [Piece.chars, List.cons_append, List.infix_cons_iff] at hinfix
      rcases hinfix with hfirst | hlater
      · exact absurd hfirst (by simp [List.cons_prefix_cons])
      · exact Text.infix_of_infix_append (by simp [hdollar]) hlater

theorem expand_spelled (h : AllRead pieces) (env : Environment) :
    expand env (spelled pieces) = String.ofList (meaning (lookup env) pieces) := by
  have hdate : ¬ "$(date)".toList <:+: spelled pieces := fun hinfix =>
    not_command_infix h (List.IsInfix.trans ⟨[], "date)".toList, rfl⟩ hinfix)
  have hplace : ¬ "$(pwd)".toList <:+: spelled pieces := fun hinfix =>
    not_command_infix h (List.IsInfix.trans ⟨[], "pwd)".toList, rfl⟩ hinfix)
  rw [expand, Text.replaceAll_of_not_infix (by decide) hdate,
    Text.replaceAll_of_not_infix (by decide) hplace, substitute_spelled h]

end Texts

section Values

variable (env : Environment) (before : List Statement)

theorem lookup_eq (name : String) :
    lookup env name = (env.vars.get? name).getD (known env name) := by
  rw [lookup]
  split <;> rename_i hvalue <;> rw [hvalue] <;> rfl

theorem get?_assignAll (vars : Variables) (pairs : List (String × String)) (name : String) :
    (assignAll vars pairs).get? name = (pairs.reverse.lookup name).or (vars.get? name) := by
  induction pairs generalizing vars with
  | nil => rfl
  | cons pair pairs ih =>
    have hset : (vars.set pair.1 pair.2).get? name =
        (List.lookup name [pair]).or (vars.get? name) := by
      rw [Variables.get?_set, Dictionary.lookup_entry]
      split <;> rfl
    rw [assignAll, List.foldl_cons, List.reverse_cons, List.lookup_append, Option.or_assoc, ← hset]
    exact ih _

theorem lookup_assignAll :
    lookup { env with vars := assignAll env.vars (assignments before) } =
      valueAfter env before := by
  funext name
  rw [lookup_eq, valueAfter, ← get?_assignAll]
  rfl

end Values

section Walking

variable {s : Statement} {line raw : String}

theorem isSeparator_of_isBlank {c : Char} (h : Text.isBlank c = true) : isSeparator c = true := by
  rw [isSeparator, h, Bool.true_or]

/-- The text of an `echo` is what is left of it behind the blanks. -/
theorem trim_gap_spelled {gap : String} {pieces : List Piece}
    (hgap : ∀ c ∈ gap.toList, Text.isBlank c = true)
    (hstart : ∀ c ∈ (spelled pieces).head?, Text.isBlank c = false)
    (hline : (Text.trim raw).toList = "echo".toList ++ (gap.toList ++ spelled pieces)) :
    (Text.trim (String.ofList (gap.toList ++ spelled pieces))).toList = spelled pieces := by
  by_cases hempty : spelled pieces = []
  · rw [hempty, List.append_nil, String.ofList_toList, Text.trim_eq_empty hgap]
    rfl
  · have htrimmed : Text.Trimmed (spelled pieces) := by
      refine ⟨hempty, hstart, fun c hc => Text.not_isBlank_of_getLast?_trim (s := raw) ?_⟩
      rw [hline, ← List.append_assoc, List.getLast?_append, hc, Option.some_or]
      rfl
    have htrim := Text.toList_trim_append htrimmed gap.toList []
    rw [List.append_nil, List.dropWhile_eq_nil_iff.mpr hgap, List.nil_append] at htrim
    exact htrim.trans (List.append_nil _)

/-- An assignment sets its variable, and nothing is printed. -/
theorem walkLine_assign {name value : String} (hwell : (Statement.assign name value).WellFormed)
    (hline : line.toList = (Statement.assign name value).chars) (env : Environment) :
    walkLine line env = (none, { env with vars := env.vars.set name value }) := by
  obtain ⟨hname, hvalue⟩ := hwell
  have hidentifier := isName_of_isIdentifier hname
  have hplain (c : Char) (hc : isNameChar c = false) (hequals : c ≠ '=')
      (hmem : c ∈ ['$', ';', '\x22']) : c ∉ line.toList := by
    rw [hline, Statement.chars, List.mem_append, List.mem_cons, not_or, not_or]
    exact ⟨hidentifier.not_mem hc, hequals, hvalue c hmem⟩
  have hdollar := hplain '$' (by decide) (by decide) (by simp)
  have hsemicolon := hplain ';' (by decide) (by decide) (by simp)
  have hcut : Text.splitOnce '=' line.toList = some (name.toList, value.toList) := by
    rw [hline]
    exact Text.splitOnce_append (hidentifier.not_mem (by decide)) value.toList
  have hquotes := filter_quotes (hvalue '\x22' (by simp))
  have hassigned : assignment? line.toList = some (name, value) := by
    rw [assignment?, if_neg (by simp [hdollar, hsemicolon]), hcut]
    simp only [hname, if_true, hquotes, String.ofList_toList]
  rw [walkLine, hassigned]

/-- An `echo` prints what its text stands for. -/
theorem walkLine_statement_echo {gap : String} {pieces : List Piece}
    (hwell : (Statement.echo gap pieces).WellFormed)
    (hline : (Text.trim raw).toList = (Statement.echo gap pieces).chars) (env : Environment) :
    walkLine (Text.trim raw) env = (some (String.ofList (meaning (lookup env) pieces)), env) := by
  obtain ⟨hgap, hbare, hstart, hquotes, hread⟩ := hwell
  have hhead : ∀ c ∈ (gap.toList ++ spelled pieces).head?, isSeparator c = true := by
    by_cases hempty : gap = ""
    · rw [hbare hempty, hempty]
      simp
    · obtain ⟨first, more, hmore⟩ :=
        List.exists_cons_of_ne_nil (mt String.toList_eq_nil_iff.mp hempty)
      rw [hmore] at hgap ⊢
      exact fun c hc => isSeparator_of_isBlank (hgap c (Option.some.inj hc ▸ List.mem_cons_self ..))
  rw [walkLine_echo hline hhead, trim_gap_spelled hgap hstart hline, filter_quotes hquotes,
    expand_spelled hread]

/-- What one line of a script does. -/
theorem walk_statement (hwell : s.WellFormed) (hraw : (Text.trim raw).toList = s.chars)
    (env : Environment) (rest : List String) :
    walk env (raw :: rest) =
      ((s.printed? (lookup env)).toList ++
          (walk { env with vars := assignAll env.vars s.assigned?.toList } rest).1,
        (walk { env with vars := assignAll env.vars s.assigned?.toList } rest).2) := by
  cases s with
  | remark text =>
    obtain rfl : Text.trim raw = text := String.toList_inj.mp hraw
    exact walk_of_passed hwell rest
  | assign name value =>
    have hname := isName_of_isIdentifier hwell.1
    obtain ⟨first, more, hmore⟩ := List.exists_cons_of_ne_nil hname.ne_nil
    have hhead : (Text.trim raw).toList.head? = some first := by
      rw [hraw, Statement.chars, hmore]
      rfl
    have hfirst : first ≠ '#' := fun hcomment =>
      hname.not_mem (c := '#') (by decide) (hcomment ▸ hmore ▸ List.mem_cons_self ..)
    rw [walk_of_head? hhead hfirst, walkLine_assign hwell hraw]
    rfl
  | echo gap pieces =>
    have hhead : (Text.trim raw).toList.head? = some 'e' := by
      rw [hraw]
      rfl
    rw [walk_of_head? hhead (by decide), walkLine_statement_echo hwell hraw]
    rfl

/-- What the lines of a script do, behind others. -/
theorem walk_statements {statements : List Statement} {raws : List String}
    (hwell : ∀ s ∈ statements, s.WellFormed)
    (hraws : raws.map (fun raw => (Text.trim raw).toList) = statements.map Statement.chars)
    (env : Environment) (before : List Statement) :
    walk { env with vars := assignAll env.vars (assignments before) } raws =
      (printedAfter env before statements,
        { env with vars := assignAll env.vars (assignments (before ++ statements)) }) := by
  induction statements generalizing raws before with
  | nil =>
    rw [List.map_nil, List.map_eq_nil_iff] at hraws
    rw [hraws, List.append_nil]
    rfl
  | cons s statements ih =>
    rw [List.map_cons, List.map_eq_cons_iff] at hraws
    obtain ⟨raw, rest, rfl, hraw, hrest⟩ := hraws
    rw [List.forall_mem_cons] at hwell
    have hnext : assignAll (assignAll env.vars (assignments before)) s.assigned?.toList =
        assignAll env.vars (assignments (before ++ [s])) := by
      have hlast : assignments [s] = s.assigned?.toList := by cases s <;> rfl
      rw [← hlast, assignments, assignments, assignments, List.filterMap_append, assignAll,
        assignAll, assignAll, List.foldl_append]
    have hlater := ih hwell.2 hrest (before ++ [s])
    rw [List.append_assoc, List.singleton_append] at hlater
    rw [walk_statement hwell.1 hraw, lookup_assignAll, printedAfter]
    simp only [hnext, hlater]

theorem length_printedAfter (env : Environment) (before statements : List Statement) :
    (printedAfter env before statements).length = statements.countP Statement.isEcho := by
  induction statements generalizing before with
  | nil => rfl
  | cons s statements ih =>
    rw [printedAfter, List.length_append, ih, List.countP_cons]
    cases s <;> simp [Statement.printed?, Statement.isEcho, Nat.add_comm]

end Walking

/-- A script of assignments and echoes prints one line for each `echo`, in which each reference
stands for the last value of its name, and leaves the variables with the values assigned last;
nothing else of the environment changes. -/
theorem run_statements {source : String} {statements : List Statement}
    (hwell : ∀ s ∈ statements, s.WellFormed)
    (hsource : (Text.lines source).map (fun raw => (Text.trim raw).toList) =
      statements.map Statement.chars) (name : String) (env : Environment) :
    run name source env =
      (["--- running " ++ name ++ " ---"] ++ printedAfter env [] statements ++
          ["--- " ++ name ++ " finished ---"],
        { env with vars := assignAll env.vars (assignments statements) }) ∧
    (printedAfter env [] statements).length = statements.countP Statement.isEcho ∧
    ∀ other, (assignAll env.vars (assignments statements)).get? other =
      ((assignments statements).reverse.lookup other).or (env.vars.get? other) := by
  have hwalk : walk env (Text.lines source) =
      (printedAfter env [] statements,
        { env with vars := assignAll env.vars (assignments statements) }) :=
    walk_statements hwell hsource env []
  refine ⟨?_, length_printedAfter env [] statements, get?_assignAll env.vars _⟩
  rw [run, hwalk]

theorem run_statements_of_greeting :
    ∃ env after : Environment, env.vars.get? "NAME" = some "$USER" ∧
      run "greet.sh"
          "# greet\n\necho Hi $NAME!\n  NAME=a=b \necho\t$\x7bNAME\x7ds at $PWD/$X\necho\n" env =
        (["--- running greet.sh ---", "Hi $USER!", "a=bs at /srv/", "",
          "--- greet.sh finished ---"], after) ∧
      after.vars.get? "NAME" = some "a=b" := by
  let env : Environment :=
    ⟨"/srv", "/home/ada", "ada", ⟨[], "ada", "ada"⟩, ⟨[("NAME", "$USER")]⟩, [], ⟨0⟩⟩
  let statements : List Statement :=
    [.remark "# greet", .remark "", .echo " " [.plain "Hi ", .bare "NAME", .plain "!"],
      .assign "NAME" "a=b",
      .echo "\t" [.braced "NAME", .plain "s at ", .bare "PWD", .plain "/", .bare "X"], .echo "" []]
  have hwell : ∀ s ∈ statements, s.WellFormed := by decide
  have hsource :
      (Text.lines
          "# greet\n\necho Hi $NAME!\n  NAME=a=b \necho\t$\x7bNAME\x7ds at $PWD/$X\necho\n").map
        (fun raw => (Text.trim raw).toList) = statements.map Statement.chars := by
    decide +kernel
  have hprinted : ["--- running " ++ "greet.sh" ++ " ---"] ++ printedAfter env [] statements ++
        ["--- " ++ "greet.sh" ++ " finished ---"] =
      ["--- running greet.sh ---", "Hi $USER!", "a=bs at /srv/", "",
        "--- greet.sh finished ---"] := by
    decide +kernel
  have hname : ((assignments statements).reverse.lookup "NAME").or (env.vars.get? "NAME") =
      some "a=b" := by
    decide +kernel
  obtain ⟨hrun, -, hvars⟩ := run_statements hwell hsource "greet.sh" env
  rw [hprinted] at hrun
  exact ⟨env, _, rfl, hrun, (hvars "NAME").trans hname⟩

end ShellTutor.Script

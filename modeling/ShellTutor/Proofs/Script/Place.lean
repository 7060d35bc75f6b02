import ShellTutor.Proofs.Calendar
import ShellTutor.Proofs.Command.Effect
import ShellTutor.Proofs.Script.Walk
import ShellTutor.Proofs.Session.Reachable

/-!
# Two ways to name the place

The working directory stands in a text for `$(pwd)` as for a reference to `PWD`. But it is put in
for `$(pwd)` first, and the references are looked for afterwards, also in the name of the directory.
So the two agree as long as no reference begins in that name, and as long as `$(pwd)` itself does
not stand in braces that were opened before.
-/

namespace ShellTutor

namespace Script

variable {env : Environment} {front back : List Char}

/-- A text with the date put in. -/
def dated (env : Environment) (text : List Char) : List Char :=
  Text.replaceAll "$(date)".toList env.now.fullText.toList text

/-- A text with the date and the working directory put in. -/
def filled (env : Environment) (text : List Char) : List Char :=
  Text.replaceAll "$(pwd)".toList env.cwd.toList (dated env text)

theorem expand_eq (env : Environment) (text : List Char) :
    expand env text = String.ofList (substitute (lookup env) (filled env text)) := rfl

/-- The mark for the working directory is replaced between the texts on its two sides. -/
theorem filled_place (env : Environment) (front back : List Char) :
    filled env (front ++ ("$(pwd)".toList ++ back)) =
      filled env front ++ (env.cwd.toList ++ filled env back) := by
  have hdate : dated env (front ++ ("$(pwd)".toList ++ back)) =
      dated env front ++ ("$(pwd)".toList ++ dated env back) :=
    Text.replaceAll_append_mark (by decide) (by decide) (by decide) (by decide) front back
  rw [filled, hdate, filled, filled, ← Text.replaceAll_needle_append (by decide)]
  exact Text.replaceAll_append (by decide) _ _

/-- A reference to `PWD` stays between the texts on its two sides. -/
theorem filled_reference (env : Environment) (front back : List Char) :
    filled env (front ++ ("$\x7bPWD\x7d".toList ++ back)) =
      filled env front ++ ("$\x7bPWD\x7d".toList ++ filled env back) := by
  have hdate : dated env (front ++ ("$\x7bPWD\x7d".toList ++ back)) =
      dated env front ++ ("$\x7bPWD\x7d".toList ++ dated env back) :=
    Text.replaceAll_append_mark (by decide) (by decide) (by decide) (by decide) front back
  rw [filled, hdate]
  exact Text.replaceAll_append_mark (by decide) (by decide) (by decide) (by decide) _ _

/-- What is put in neither opens a brace nor closes one. -/
theorem closed_filled (h : Closed front) (hcwd : env.cwd.toList.head? = some '/')
    (hinert : Inert env.cwd.toList) : Closed (filled env front) := by
  have hunmarked := Calendar.unmarked_fullText env.now
  have hdate := Calendar.fullText_ne_nil env.now
  rw [filled, dated]
  generalize env.now.fullText = date at hunmarked hdate
  have hdateInert : Inert date.toList := inert_of_not_mem fun hmem => (hunmarked _ hmem).1 rfl
  have hdateStart : date.toList.head? ≠ some '\x7b' := fun hopen =>
    (hunmarked _ (List.mem_of_mem_head? hopen)).2 rfl
  have hplace : env.cwd.toList ≠ [] := fun hnil => by
    rw [hnil] at hcwd
    cases hcwd
  refine Closed.replaceAll (by decide) (by decide) hplace (by simp [hcwd]) hinert ?_
  exact Closed.replaceAll (by decide) (by decide) hdate hdateStart hdateInert h

/-- The two ways to name the working directory give the same text. -/
theorem expand_place (hclosed : Closed front) (hcwd : env.cwd.toList.head? = some '/')
    (hinert : Inert env.cwd.toList) (hunset : env.vars.get? "PWD" = none) (back : List Char) :
    expand env (front ++ ("$(pwd)".toList ++ back)) =
      expand env (front ++ ("$\x7bPWD\x7d".toList ++ back)) := by
  have hvalue : lookup env "PWD" = env.cwd := by
    rw [lookup, hunset]
    rfl
  have hopen : Closed (filled env front) := closed_filled hclosed hcwd hinert
  have hplace : substitute (lookup env) (filled env front ++ (env.cwd.toList ++ filled env back)) =
      substitute (lookup env) (filled env front) ++
        (env.cwd.toList ++ substitute (lookup env) (filled env back)) := by
    obtain ⟨rest, hrest⟩ := List.head?_eq_some_iff.mp hcwd
    have hstart : ∀ c ∈ (env.cwd.toList ++ filled env back).head?,
        isNameChar c = false ∧ c ≠ '\x7b' := by
      rw [hrest]
      exact fun c hc => Option.some.inj hc ▸ by decide
    rw [substitute_append hopen hstart, substitute_append_of_inert hinert]
  have hreference : substitute (lookup env)
        (filled env front ++ ("$\x7bPWD\x7d".toList ++ filled env back)) =
      substitute (lookup env) (filled env front) ++
        (env.cwd.toList ++ substitute (lookup env) (filled env back)) := by
    have hstart : ∀ c ∈ ("$\x7bPWD\x7d".toList ++ filled env back).head?,
        isNameChar c = false ∧ c ≠ '\x7b' :=
      fun c hc => Option.some.inj hc ▸ by decide
    have hput : substitute (lookup env)
          ('$' :: '\x7b' :: ("PWD".toList ++ '\x7d' :: filled env back)) =
        (lookup env "PWD").toList ++ substitute (lookup env) (filled env back) :=
      substitute_braced (by decide) (filled env back)
    rw [substitute_append hopen hstart, ← hvalue, ← hput]
    rfl
  rw [expand_eq, expand_eq, filled_place, filled_reference, hplace, hreference]

section Lines

variable {pad : List Char} {sep : Char}

/-- An `echo` in a line of its own, with what may stand in front of it, and a text behind the
character that ends the word. -/
def echoLine (pad : List Char) (sep : Char) (text : List Char) : String :=
  String.ofList (pad ++ ("echo".toList ++ sep :: text))

variable {mark : List Char}

theorem toList_trim_echoLine (hpad : ∀ c ∈ pad, Text.isBlank c = true)
    (hmark : Text.Trimmed mark) (before after : List Char) :
    (Text.trim (echoLine pad sep (before ++ (mark ++ after)))).toList =
      "echo".toList ++ (sep :: before ++ (mark ++ Text.dropEndWhile Text.isBlank after)) := by
  have hword : ∀ c ∈ ("echo".toList ++ sep :: before).head?, Text.isBlank c = false :=
    fun c hc => Option.some.inj hc ▸ by decide
  have htrim :=
    Text.toList_trim_append hmark (pad ++ ("echo".toList ++ sep :: before)) after
  rw [Text.dropWhile_append_of_head? hword, List.dropWhile_eq_nil_iff.mpr hpad] at htrim
  simpa only [echoLine, List.append_assoc, List.cons_append, List.nil_append] using htrim

/-- What an `echo` expands, if a mark stands in its text: what is left of the texts in front of the
mark and behind it, with the mark between them. -/
theorem walk_echoLine (hpad : ∀ c ∈ pad, Text.isBlank c = true) (hsep : isSeparator sep = true)
    (hmark : Text.Trimmed mark) (hquote : '\x22' ∉ mark) (before after : List Char)
    (env : Environment) (later : List String) :
    walk env (echoLine pad sep (before ++ (mark ++ after)) :: later) =
      (expand env (((sep :: before).dropWhile Text.isBlank).filter (· != '\x22') ++ (mark ++
          (Text.dropEndWhile Text.isBlank (Text.dropEndWhile Text.isBlank after)).filter
            (· != '\x22'))) :: (walk env later).1,
        (walk env later).2) := by
  have hline : (Text.trim (echoLine pad sep (before ++ (mark ++ after)))).toList = _ :=
    toList_trim_echoLine hpad hmark before after
  have htext := Text.toList_trim_append hmark (sep :: before) (Text.dropEndWhile Text.isBlank after)
  have hhead : (Text.trim (echoLine pad sep (before ++ (mark ++ after)))).toList.head? =
      some 'e' := by
    rw [hline]
    rfl
  rw [walk_of_head? hhead (by decide), walkLine_echo hline (fun c hc => Option.some.inj hc ▸ hsep),
    htext, List.filter_append, List.filter_append, filter_quotes hquote]
  rfl

/-- What stands in front of a mark stays closed when the blanks and the quotes are dropped. -/
theorem closed_front (hsep : isSeparator sep = true) {before : List Char}
    (h : Closed (before.filter (· != '\x22'))) :
    Closed (((sep :: before).dropWhile Text.isBlank).filter (· != '\x22')) := by
  have hall : Closed ((sep :: before).filter (· != '\x22')) := by
    rw [List.filter_cons]
    split
    · refine ⟨fun hdollar => ?_, h⟩
      rw [hdollar] at hsep
      exact absurd hsep (by decide)
    · exact h
  obtain ⟨dropped, hdropped⟩ := List.dropWhile_suffix (l := sep :: before) Text.isBlank
  rw [← hdropped, List.filter_append] at hall
  exact hall.of_append

end Lines

/-- In the text of an `echo`, `$(pwd)` and a reference to `PWD` are printed alike, if `PWD` has no
value of its own when the line is reached, no reference begins in the path of the working directory,
and no brace is open. By itself `$(pwd)` is printed as `pwd` prints it. -/
theorem run_place {pad before after : List Char} {sep : Char} {earlier later : List String}
    {source source' : String} (hpad : ∀ c ∈ pad, Text.isBlank c = true)
    (hsep : isSeparator sep = true)
    (hsource : Text.lines source =
      earlier ++ echoLine pad sep (before ++ ("$(pwd)".toList ++ after)) :: later)
    (hsource' : Text.lines source' =
      earlier ++ echoLine pad sep (before ++ ("$\x7bPWD\x7d".toList ++ after)) :: later)
    (hclosed : Closed (before.filter (· != '\x22'))) (hcwd : env.cwd.toList.head? = some '/')
    (hinert : Inert env.cwd.toList) (hunset : (walk env earlier).2.vars.get? "PWD" = none)
    (name : String) :
    run name source env = run name source' env ∧
      run name "echo $(pwd)" env =
        (["--- running " ++ name ++ " ---", env.cwd, "--- " ++ name ++ " finished ---"], env) ∧
      Command.pwd.execute [] none env = (.ok (.text env.cwd), env) := by
  refine ⟨?_, ?_, rfl⟩
  · have hplace : (walk env earlier).2.cwd = env.cwd := by
      obtain ⟨vars, hvars⟩ := walk_env env earlier
      rw [hvars]
    rw [← hplace] at hcwd hinert
    rw [run, run, hsource, hsource', walk_append, walk_append,
      walk_echoLine hpad hsep (by decide) (by decide),
      walk_echoLine hpad hsep (by decide) (by decide),
      expand_place (closed_front hsep hclosed) hcwd hinert hunset]
  · have hlines : Text.lines "echo $(pwd)" =
        [echoLine [] ' ' ([] ++ ("$(pwd)".toList ++ []))] := by
      decide +kernel
    have hprinted : expand env ([] ++ ("$(pwd)".toList ++ [])) = env.cwd := by
      have hfilled : filled env [] = [] := rfl
      rw [expand_eq, filled_place, hfilled, List.append_nil, List.nil_append,
        substitute_of_inert hinert, String.ofList_toList]
    have hwalk : walk env [echoLine [] ' ' ([] ++ ("$(pwd)".toList ++ []))] = ([env.cwd], env) := by
      rw [walk_echoLine (by simp) (by decide) (by decide) (by decide)]
      exact Prod.ext (congrArg (· :: []) hprinted) rfl
    rw [run, hlines, hwalk]
    rfl

theorem run_place_of_survey :
    ∃ env : Environment, env.cwd = "/srv/a$-b" ∧
      run "at.sh" "X=1\n  echo \"$X $(pwd)$\x7bX\x7d\", $(date)\nls" env =
        run "at.sh" "X=1\n  echo \"$X $\x7bPWD\x7d$\x7bX\x7d\", $(date)\nls" env ∧
      run "at.sh" "echo $(pwd)" env =
        (["--- running at.sh ---", "/srv/a$-b", "--- at.sh finished ---"], env) := by
  let env : Environment := ⟨"/srv/a$-b", "/srv", "ada", ⟨[], "ada", "ada"⟩, {}, [], ⟨0⟩⟩
  have hsource : Text.lines "X=1\n  echo \"$X $(pwd)$\x7bX\x7d\", $(date)\nls" =
      ["X=1"] ++ echoLine "  ".toList ' ' ("\"$X ".toList ++
        ("$(pwd)".toList ++ "$\x7bX\x7d\", $(date)".toList)) :: ["ls"] := by
    decide +kernel
  have hsource' : Text.lines "X=1\n  echo \"$X $\x7bPWD\x7d$\x7bX\x7d\", $(date)\nls" =
      ["X=1"] ++ echoLine "  ".toList ' ' ("\"$X ".toList ++
        ("$\x7bPWD\x7d".toList ++ "$\x7bX\x7d\", $(date)".toList)) :: ["ls"] := by
    decide +kernel
  have hunset : (walk env ["X=1"]).2.vars.get? "PWD" = none := by decide +kernel
  have hpad : ∀ c ∈ "  ".toList, Text.isBlank c = true := List.all_eq_true.mp (by decide)
  have hclosed : Closed ("\"$X ".toList.filter (· != '\x22')) := by decide
  have hinert : Inert env.cwd.toList := by decide
  obtain ⟨hsame, halone, -⟩ :=
    run_place hpad (by decide) hsource hsource' hclosed (by decide) hinert hunset "at.sh"
  exact ⟨env, rfl, hsame, halone⟩

end Script

namespace Session

/-- What looks like a reference in the name of the directory is put in for `$(pwd)` as one. -/
theorem submit_expands_place :
    ∃ s : Session, Reachable { Lesson.blank with tree := [.file "s.sh" "echo $(pwd)"] } s ∧
      s.takesCommands = true ∧ s.vars.get? "PWD" = none ∧
      (s.submit "pwd" ⟨3⟩).1.lines =
        [.echo "quest@linux:~/$x$ pwd", .output "/home/quest/$x"] ∧
      (s.submit "bash ../s.sh" ⟨3⟩).1.lines =
        [.echo "quest@linux:~/$x$ bash ../s.sh", .output "--- running ../s.sh ---",
          .output "/home/quest/", .output "--- ../s.sh finished ---"] := by
  have hrun : ((ofLesson { Lesson.blank with tree := [.file "s.sh" "echo $(pwd)"] }
      ⟨0⟩).toOption.map fun s =>
        let s := ((s.submit "mkdir $x" ⟨1⟩).2.submit "cd $x" ⟨2⟩).2
        (s.takesCommands, s.vars.get? "PWD", (s.submit "pwd" ⟨3⟩).1.lines,
          (s.submit "bash ../s.sh" ⟨3⟩).1.lines)) =
      some (true, none, [.echo "quest@linux:~/$x$ pwd", .output "/home/quest/$x"],
        [.echo "quest@linux:~/$x$ bash ../s.sh", .output "--- running ../s.sh ---",
          .output "/home/quest/", .output "--- ../s.sh finished ---"]) := by
    decide +kernel
  obtain ⟨s, hs, hseen⟩ := exists_start hrun
  simp only [Prod.mk.injEq] at hseen
  exact ⟨_, (hs.submit "mkdir $x" ⟨1⟩).submit "cd $x" ⟨2⟩, hseen⟩

end Session

end ShellTutor

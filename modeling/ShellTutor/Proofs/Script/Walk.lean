import ShellTutor.Proofs.Script.Expansion

/-!
# Walking through the lines of a script

Lines are taken one by one, so what a script prints is what its parts print. An `echo` is told by
the first word of its line, and is no assignment, whatever its text holds.
-/

namespace ShellTutor.Script

variable {env : Environment} {line : String} {text : List Char} {c : Char}

/-- The characters between the words of a line. -/
def isSeparator (c : Char) : Bool :=
  Text.isBlank c || c == ';'

theorem isNameChar_of_isSeparator (h : isSeparator c = true) : isNameChar c = false := by
  rw [isSeparator, Bool.or_eq_true, beq_iff_eq] at h
  rcases h with hblank | rfl
  · refine Bool.eq_false_iff.mpr fun hname => ?_
    simp only [isNameChar, isNameStart, Bool.or_eq_true, Bool.and_eq_true, decide_eq_true_eq,
      Char.le_def, UInt32.le_iff_toNat_le] at hname
    simp only [Text.isBlank, Bool.or_eq_true, Bool.and_eq_true, decide_eq_true_eq, beq_iff_eq,
      Char.toNat] at hblank
    rcases hname with ((⟨hlow, hhigh⟩ | ⟨hlow, hhigh⟩) | rfl) | ⟨hlow, hhigh⟩
    · have hlow : 97 ≤ c.val.toNat := hlow
      have hhigh : c.val.toNat ≤ 122 := hhigh
      omega
    · have hlow : 65 ≤ c.val.toNat := hlow
      have hhigh : c.val.toNat ≤ 90 := hhigh
      omega
    · exact absurd hblank (by decide)
    · have hlow : 48 ≤ c.val.toNat := hlow
      have hhigh : c.val.toNat ≤ 57 := hhigh
      omega
  · decide

theorem isName_of_isIdentifier {name : List Char} (h : isIdentifier name = true) : IsName name := by
  cases name with
  | nil => cases h
  | cons c name =>
    rw [isIdentifier, Bool.and_eq_true, List.all_eq_true] at h
    refine ⟨List.cons_ne_nil _ _, List.forall_mem_cons.mpr ⟨?_, h.2⟩⟩
    rw [isNameChar, h.1, Bool.true_or]

/-- No name is in front of an equals sign, since a separator comes before it. -/
theorem assignment?_echo (htext : ∀ c ∈ text.head?, isSeparator c = true) :
    assignment? ("echo".toList ++ text) = none := by
  rw [assignment?]
  split
  · rfl
  · rename_i hplain
    cases hcut : Text.splitOnce '=' ("echo".toList ++ text) with
    | none => rfl
    | some parts =>
      obtain ⟨name, shown⟩ := parts
      obtain ⟨hsplit, -⟩ := Text.splitOnce_eq_some_iff.mp hcut
      refine if_neg fun hidentifier => ?_
      have hchars := (isName_of_isIdentifier hidentifier).chars
      rcases List.append_eq_append_iff.mp hsplit with ⟨more, rfl, hrest⟩ | ⟨more, hecho, hrest⟩
      · cases more with
        | nil =>
          rw [hrest] at htext
          exact absurd (htext '=' rfl) (by decide)
        | cons c more =>
          rw [hrest] at htext
          have hc := hchars c (by simp)
          rw [isNameChar_of_isSeparator (htext c rfl)] at hc
          cases hc
      · cases more with
        | nil =>
          rw [List.nil_append] at hrest
          rw [← hrest] at htext
          exact absurd (htext '=' rfl) (by decide)
        | cons c more =>
          obtain ⟨rfl, -⟩ := List.cons.inj hrest
          have hequals : '=' ∈ "echo".toList := hecho ▸ List.mem_append_right _ (by simp)
          exact absurd hequals (by decide)

theorem lineWords_echo (htext : ∀ c ∈ text.head?, isSeparator c = true) :
    (lineWords ("echo".toList ++ text)).head? = some "echo" := by
  have hecho : Text.runs isSeparator "echo".toList = ["echo".toList] := by decide
  show ((Text.runs isSeparator ("echo".toList ++ text)).map String.ofList).head? = some "echo"
  cases text with
  | nil =>
    rw [List.append_nil, hecho]
    rfl
  | cons c text =>
    rw [Text.runs_append_sep (htext c rfl), hecho]
    rfl

theorem filter_quotes {cs : List Char} (h : '\x22' ∉ cs) : cs.filter (· != '\x22') = cs := by
  rw [List.filter_eq_self]
  exact fun c hc => bne_iff_ne.mpr fun hquote => h (hquote ▸ hc)

/-- A line whose first word is `echo` prints what follows it. -/
theorem walkLine_echo (hline : line.toList = "echo".toList ++ text)
    (htext : ∀ c ∈ text.head?, isSeparator c = true) (env : Environment) :
    walkLine line env =
      (some (expand env ((Text.trim (String.ofList text)).toList.filter (· != '\x22'))), env) := by
  have hbehind : Text.after? "echo" line = some (String.ofList text) := by
    rw [Text.after?, hline, if_pos (by simp)]
    simp
  rw [walkLine, hline, assignment?_echo htext]
  simp only [lineWords_echo htext, if_true, hbehind, Option.getD_some]

theorem walk_of_passed {raw : String}
    (h : Text.trim raw = "" ∨ (Text.trim raw).toList.head? = some '#') (rest : List String) :
    walk env (raw :: rest) = walk env rest := by
  rw [walk, if_pos h]

theorem walk_of_not_passed {raw : String}
    (h : ¬ (Text.trim raw = "" ∨ (Text.trim raw).toList.head? = some '#')) (rest : List String) :
    walk env (raw :: rest) =
      ((walkLine (Text.trim raw) env).1.toList ++ (walk (walkLine (Text.trim raw) env).2 rest).1,
        (walk (walkLine (Text.trim raw) env).2 rest).2) := by
  rw [walk, if_neg h]

/-- A line that starts with something else than a comment does is walked through. -/
theorem walk_of_head? {raw : String} (hhead : (Text.trim raw).toList.head? = some c) (hc : c ≠ '#')
    (rest : List String) :
    walk env (raw :: rest) =
      ((walkLine (Text.trim raw) env).1.toList ++ (walk (walkLine (Text.trim raw) env).2 rest).1,
        (walk (walkLine (Text.trim raw) env).2 rest).2) := by
  refine walk_of_not_passed ?_ rest
  rintro (hempty | hcomment)
  · rw [hempty] at hhead
    cases hhead
  · exact hc (Option.some.inj (hhead.symm.trans hcomment))

theorem walk_append (env : Environment) (earlier later : List String) :
    walk env (earlier ++ later) =
      ((walk env earlier).1 ++ (walk (walk env earlier).2 later).1,
        (walk (walk env earlier).2 later).2) := by
  induction earlier generalizing env with
  | nil => rfl
  | cons raw earlier ih =>
    rw [List.cons_append]
    by_cases hpassed : Text.trim raw = "" ∨ (Text.trim raw).toList.head? = some '#'
    · rw [walk_of_passed hpassed, walk_of_passed hpassed, ih]
    · rw [walk_of_not_passed hpassed, walk_of_not_passed hpassed, ih, List.append_assoc]

end ShellTutor.Script

import ShellTutor.Command.Builtin
import ShellTutor.Proofs.Number.Integer
import ShellTutor.Proofs.Number.Order
import ShellTutor.Proofs.Outcome
import ShellTutor.Proofs.Sort.Stable

/-!
# What sorting does to lines

Sorting changes the order of lines and nothing else. Numbers can be compared with each other, but
not with `nan`, which is neither below nor above any of them; so what is said about the order of
numbers is said of lines that begin with integers. Lines with equal integers stay in order as long
as the sorted list is not turned around: then they are turned around with the rest. More than 20
lines with a `nan` among them may make the sort crash, which it never does for other lines.
-/

namespace ShellTutor

namespace Filter

/-- The letters of a flag of `sort`. A word that has none is a file. -/
def sortLetters (arg : String) : List Char :=
  ((Text.after? "-" arg).getD "").toList

/-- The letters of all flags. -/
def sortFlags (args : List String) : List Char :=
  args.flatMap sortLetters

/-- The file that is sorted, if one is named: the last of them. -/
def sortFile (args : List String) : Option String :=
  (args.filter fun arg => (sortLetters arg).isEmpty).getLast?

/-- The integer at the start of a line, of at most fifteen digits. A blank line counts as zero. -/
def leadingInteger? (line : String) : Option Int :=
  match (Text.words line).head? with
  | some word => Number.shortInteger? word.toList
  | none => some 0

/-- The lines begin with these integers. -/
def Numbered (value : String → Int) (lines : List String) : Prop :=
  ∀ line ∈ lines, leadingInteger? line = some (value line)

instance (value : String → Int) (lines : List String) : Decidable (Numbered value lines) :=
  inferInstanceAs (Decidable (∀ line ∈ lines, leadingInteger? line = some (value line)))

/-- The lines in the order that the flags ask for. -/
def arrange (numeric reversed : Bool) (lines : List String) : List String :=
  let sorted := if numeric then sortNumbers lines else sortLines lines
  if reversed then sorted.reverse else sorted

section Flags

theorem SortOptions.word_of_file {arg : String} (h : sortLetters arg = []) (o : SortOptions) :
    o.word arg = .ok { o with file := some arg } := by
  rw [sortLetters, String.toList_eq_nil_iff] at h
  rw [word]
  split
  · rename_i flags hflags
    rw [hflags] at h
    exact if_pos h
  · rfl

theorem SortOptions.word_of_flag {arg : String} (h : sortLetters arg ≠ []) (o : SortOptions) :
    o.word arg = (sortLetters arg).foldlM flag o := by
  rw [sortLetters, ne_eq, String.toList_eq_nil_iff] at h
  rw [word, sortLetters]
  split
  · rename_i flags hflags
    rw [hflags] at h ⊢
    exact if_neg h
  · rename_i hflags
    rw [hflags] at h
    exact absurd rfl h

theorem SortOptions.foldlM_flag {letters : List Char} (h : ∀ c ∈ letters, c = 'r' ∨ c = 'n')
    (o : SortOptions) :
    letters.foldlM flag o = .ok { o with
      reversed := o.reversed || decide ('r' ∈ letters)
      numeric := o.numeric || decide ('n' ∈ letters) } := by
  induction letters generalizing o with
  | nil => simp
  | cons c rest ih =>
    have hrest := ih fun d hd => h d (List.mem_cons_of_mem c hd)
    rcases h c (List.mem_cons_self ..) with rfl | rfl
    · simp [List.foldlM_cons, flag, hrest]
    · simp [List.foldlM_cons, flag, hrest]

/-- Flags of the letters `r` and `n` are accepted, in whatever way they are put together. -/
theorem SortOptions.foldlM_word {args : List String} (h : ∀ c ∈ sortFlags args, c = 'r' ∨ c = 'n')
    (o : SortOptions) :
    args.foldlM word o = .ok {
      reversed := o.reversed || decide ('r' ∈ sortFlags args)
      numeric := o.numeric || decide ('n' ∈ sortFlags args)
      file := (sortFile args).or o.file } := by
  induction args generalizing o with
  | nil => simp [sortFlags, sortFile]
  | cons arg rest ih =>
    have hflags : sortFlags (arg :: rest) = sortLetters arg ++ sortFlags rest := List.flatMap_cons
    rw [hflags, List.forall_mem_append] at h
    rw [List.foldlM_cons, hflags]
    by_cases hfile : sortLetters arg = []
    · have hlast : sortFile (arg :: rest) = (sortFile rest).or (some arg) := by
        rw [sortFile, List.filter_cons, if_pos (List.isEmpty_iff.mpr hfile), List.getLast?_cons,
          sortFile, Option.or_some]
      rw [word_of_file hfile, Outcome.ok_bind, ih h.2, hlast, hfile]
      simp
    · have hlast : sortFile (arg :: rest) = sortFile rest := by
        rw [sortFile, List.filter_cons, if_neg (mt List.isEmpty_iff.mp hfile), ← sortFile]
      rw [word_of_flag hfile, foldlM_flag h.1, Outcome.ok_bind, ih h.2, hlast]
      simp [Bool.or_assoc]

theorem sort_eq {args : List String} (hflags : ∀ c ∈ sortFlags args, c = 'r' ∨ c = 'n')
    {usage : String} {piped : Option String} {env : Environment} {text : String}
    (hinput : input usage env piped (sortFile args) = .ok text) :
    sort usage args piped env = .ok (.text (Text.unlines
      (arrange ('n' ∈ sortFlags args) ('r' ∈ sortFlags args) (Text.lines text)))) := by
  rw [sort, SortOptions.foldlM_word hflags, Outcome.ok_bind]
  simp only [Option.or_none, hinput, Outcome.ok_bind, Bool.false_or]
  rfl

theorem sortCrashes_eq {args : List String} (hflags : ∀ c ∈ sortFlags args, c = 'r' ∨ c = 'n')
    {usage : String} {piped : Option String} {env : Environment} {text : String}
    (hinput : input usage env piped (sortFile args) = .ok text) :
    sortCrashes usage args piped env =
      (decide ('n' ∈ sortFlags args) && (sortNumbers? (Text.lines text)).isNone) := by
  rw [sortCrashes, SortOptions.foldlM_word hflags, Outcome.ok_bind]
  simp only [Option.or_none, hinput, Outcome.ok_bind, Bool.false_or]
  rfl

end Flags

section ByKey

variable {α κ : Type} [LE κ] [DecidableLE κ] [Std.IsLinearPreorder κ] (key : α → κ)

theorem byKey_trans (a b c : α) (hab : decide (key a ≤ key b) = true)
    (hbc : decide (key b ≤ key c) = true) : decide (key a ≤ key c) = true := by
  rw [decide_eq_true_eq] at hab hbc ⊢
  exact Std.le_trans hab hbc

theorem byKey_total (a b : α) : (decide (key a ≤ key b) || decide (key b ≤ key a)) = true := by
  rw [Bool.or_eq_true, decide_eq_true_eq, decide_eq_true_eq]
  exact Std.le_total

theorem pairwise_mergeSort_byKey (items : List α) :
    (items.mergeSort fun a b => decide (key a ≤ key b)).Pairwise fun a b => key a ≤ key b :=
  (List.pairwise_mergeSort (byKey_trans key) (byKey_total key) items).imp of_decide_eq_true

end ByKey

theorem map_snd_keyed (lines : List String) :
    (lines.map fun line => (numericKey line, line)).map Prod.snd = lines := by
  rw [List.map_map]
  exact List.map_id lines

theorem perm_of_sortNumbers? {lines sorted : List String} (h : sortNumbers? lines = some sorted) :
    sorted.Perm lines := by
  obtain ⟨keyed, hkeyed, rfl⟩ := Option.map_eq_some_iff.mp h
  have hperm := (Sort.sort?_perm hkeyed).map Prod.snd
  rwa [map_snd_keyed] at hperm

theorem perm_sortNumbers (lines : List String) : (sortNumbers lines).Perm lines := by
  rw [sortNumbers]
  cases h : sortNumbers? lines with
  | none => exact List.Perm.refl _
  | some sorted => exact perm_of_sortNumbers? h

/-- Lines are sorted if their numbers are ordered by some rank. -/
theorem sortNumbers?_of_ranks {κ : Type} [LinearOrder κ] {rank : String → κ} {lines : List String}
    (h : ∀ a ∈ lines, ∀ b ∈ lines,
      (numericKey a).lt (numericKey b) = decide (rank a < rank b)) :
    ∃ sorted, sortNumbers? lines = some sorted ∧ Sort.Sorts rank lines sorted := by
  have hranks : Sort.Ranks (fun keyed : Number.Binary64 × String => rank keyed.2)
      (fun a b => a.1.lt b.1) (lines.map fun line => (numericKey line, line)) := by
    simp only [Sort.Ranks, List.forall_mem_map]
    exact h
  obtain ⟨sorted, hsorted, hsorts⟩ := Sort.sort?_of_ranks hranks
  refine ⟨sorted.map Prod.snd, by rw [sortNumbers?, hsorted, Option.map_some], ?_⟩
  have hlines := hsorts.map
  rwa [map_snd_keyed] at hlines

/-- Sorting by number only crashes on many lines with a `nan` among them. -/
theorem nan_of_sortNumbers?_eq_none {lines : List String} (h : sortNumbers? lines = none) :
    20 < lines.length ∧ ∃ line ∈ lines, numericKey line = .nan := by
  constructor
  · refine Nat.lt_of_not_le fun hfew => ?_
    rw [sortNumbers?, Sort.sort?_of_length_le _ (by simpa using hfew)] at h
    cases h
  · by_contra hnone
    simp only [not_exists, not_and] at hnone
    obtain ⟨sorted, hsorted, -⟩ := sortNumbers?_of_ranks fun a ha b hb =>
      Number.Binary64.lt_eq_place (hnone a ha) (hnone b hb)
    rw [hsorted] at h
    cases h

theorem perm_arrange (numeric reversed : Bool) (lines : List String) :
    (arrange numeric reversed lines).Perm lines := by
  have hsorted : (if numeric then sortNumbers lines else sortLines lines).Perm lines := by
    split
    · exact perm_sortNumbers lines
    · exact List.mergeSort_perm ..
  rw [arrange]
  split
  · exact (List.reverse_perm _).trans hsorted
  · exact hsorted

theorem pairwise_sortLines (lines : List String) : (sortLines lines).Pairwise (· ≤ ·) :=
  pairwise_mergeSort_byKey id lines

section Numbers

variable {value : String → Int} {lines : List String} (h : Numbered value lines)
include h

theorem Numbered.numericKey {line : String} (hline : line ∈ lines) :
    numericKey line = .ofInt (value line) := by
  have hleading := h line hline
  rw [leadingInteger?] at hleading
  rw [Filter.numericKey]
  split at hleading
  · rename_i word hword
    rw [hword, Option.bind_some, Number.binary64?_of_shortInteger? hleading, Option.getD_some]
  · rename_i hblank
    rw [hblank, ← Option.some.inj hleading, Number.Binary64.ofInt, Int.zero_mul]
    rfl

/-- Sorting by number is sorting by these integers. -/
theorem Numbered.sorts_sortNumbers : Sort.Sorts value lines (sortNumbers lines) := by
  obtain ⟨sorted, hsorted, hsorts⟩ := sortNumbers?_of_ranks fun a ha b hb => by
    rw [h.numericKey ha, h.numericKey hb, Number.Binary64.lt_ofInt]
  rw [sortNumbers, hsorted]
  exact hsorts

end Numbers

/-- A list that is turned around is ordered the other way round. -/
theorem pairwise_turned {R : String → String → Prop} {lines : List String} (h : lines.Pairwise R)
    (reversed : Bool) :
    (if reversed then lines.reverse else lines).Pairwise
      fun a b => if reversed then R b a else R a b := by
  cases reversed with
  | false => exact h
  | true => exact List.pairwise_reverse.mpr h

theorem pairwise_arrange_text (reversed : Bool) (lines : List String) :
    (arrange false reversed lines).Pairwise fun a b => if reversed then b ≤ a else a ≤ b :=
  pairwise_turned (pairwise_sortLines lines) reversed

theorem Numbered.pairwise_arrange {value : String → Int} {lines : List String}
    (h : Numbered value lines) (reversed : Bool) :
    (arrange true reversed lines).Pairwise
      fun a b => if reversed then value b ≤ value a else value a ≤ value b :=
  pairwise_turned h.sorts_sortNumbers.ordered reversed

/-- Lines with equal integers stay in order, or are all turned around. -/
theorem Numbered.filter_arrange {value : String → Int} {lines : List String}
    (h : Numbered value lines) (reversed : Bool) (k : Int) :
    (arrange true reversed lines).filter (value · = k) =
      if reversed then (lines.filter (value · = k)).reverse else lines.filter (value · = k) := by
  cases reversed with
  | false => exact h.sorts_sortNumbers.ties k
  | true =>
    have hturned : arrange true true lines = (sortNumbers lines).reverse := rfl
    rw [hturned, List.filter_reverse, h.sorts_sortNumbers.ties k]
    rfl

end Filter

namespace Command

open ShellTutor.Filter

variable {args : List String} {piped : Option String} {env : Environment} {text : String}

theorem execute_sort (hflags : ∀ c ∈ sortFlags args, c = 'r' ∨ c = 'n')
    (hinput : Filter.input sort.usage env piped (sortFile args) = .ok text) :
    sort.execute args piped env = (.ok (.text (Text.unlines
      (arrange ('n' ∈ sortFlags args) ('r' ∈ sortFlags args) (Text.lines text)))), env) :=
  Prod.ext (sort_eq hflags hinput) rfl

theorem execute?_sort (hflags : ∀ c ∈ sortFlags args, c = 'r' ∨ c = 'n')
    (hinput : Filter.input sort.usage env piped (sortFile args) = .ok text) :
    sort.execute? args piped env =
      if 'n' ∈ sortFlags args ∧ sortNumbers? (Text.lines text) = none then none
      else some (.ok (.text (Text.unlines
        (arrange ('n' ∈ sortFlags args) ('r' ∈ sortFlags args) (Text.lines text)))), env) := by
  rw [execute?, crashes, sortCrashes_eq hflags hinput, execute_sort hflags hinput]
  simp only [Bool.and_eq_true, decide_eq_true_eq, Option.isNone_iff_eq_none]

/-- Sorting puts the lines of its input in another order: by their characters, or by the integers
that they begin with, from the least to the greatest or with `-r` from the greatest to the least.
Without `-r` lines with equal integers stay in order. It crashes at most where more than 20 lines
are sorted by number and one of them begins with `nan`, so never where they begin with integers. -/
theorem sort_orders_lines (hflags : ∀ c ∈ sortFlags args, c = 'r' ∨ c = 'n')
    (hinput : Filter.input sort.usage env piped (sortFile args) = .ok text) :
    (sort.execute? args piped env = none → 'n' ∈ sortFlags args ∧ 20 < (Text.lines text).length ∧
      (∃ line ∈ Text.lines text, numericKey line = .nan) ∧
      ∀ value, ¬ Numbered value (Text.lines text)) ∧
    ∀ outcome, sort.execute? args piped env = some outcome →
      ∃ sorted, outcome = (.ok (.text (Text.unlines sorted)), env) ∧
        sorted.Perm (Text.lines text) ∧
        ('n' ∉ sortFlags args →
          sorted.Pairwise fun a b => if 'r' ∈ sortFlags args then b ≤ a else a ≤ b) ∧
        ('n' ∈ sortFlags args → ∀ value, Numbered value (Text.lines text) →
          (sorted.Pairwise fun a b =>
            if 'r' ∈ sortFlags args then value b ≤ value a else value a ≤ value b) ∧
          ('r' ∉ sortFlags args → ∀ k,
            sorted.filter (value · = k) = (Text.lines text).filter (value · = k))) := by
  rw [execute?_sort hflags hinput]
  constructor
  · intro hcrash
    split at hcrash
    · rename_i hnone
      obtain ⟨hmany, line, hline, hnan⟩ := nan_of_sortNumbers?_eq_none hnone.2
      refine ⟨hnone.1, hmany, ⟨line, hline, hnan⟩, fun value hvalue => ?_⟩
      rw [hvalue.numericKey hline] at hnan
      cases hnan
    · cases hcrash
  · intro outcome houtcome
    split at houtcome
    · cases houtcome
    · refine ⟨_, (Option.some.inj houtcome).symm, perm_arrange .., fun htext => ?_,
        fun hnumber value hvalue => ⟨?_, fun hforward k => ?_⟩⟩
      · simpa [htext] using pairwise_arrange_text ('r' ∈ sortFlags args) (Text.lines text)
      · simpa [hnumber] using hvalue.pairwise_arrange ('r' ∈ sortFlags args)
      · simpa [hnumber, hforward] using hvalue.filter_arrange false k

theorem sort_orders_lines_of_amounts :
    ∃ (value : String → Int) (env : Environment) (sorted : List String),
      Numbered value ["10 b", "", "\t-3 c", "+10 a", "007"] ∧
      sort.execute? ["-n"] (some "10 b\n\n\t-3 c\n+10 a\n007") env =
        some (.ok (.text (Text.unlines sorted)), env) ∧
      (sorted.Pairwise fun a b => value a ≤ value b) ∧
      sorted.filter (value · = 10) = ["10 b", "+10 a"] := by
  generalize hvalue : (fun line => (leadingInteger? line).getD 0) = value
  generalize htext : "10 b\n\n\t-3 c\n+10 a\n007" = text
  generalize henv : (⟨"/", "/", "quest", ⟨[], "quest", "quest"⟩, {}, [], ⟨0⟩⟩ : Environment) = env
  have hlines : Text.lines text = ["10 b", "", "\t-3 c", "+10 a", "007"] := by
    subst htext
    decide +kernel
  have hnumbered : Numbered value (Text.lines text) := by
    subst hvalue htext
    decide +kernel
  have hties : (Text.lines text).filter (value · = 10) = ["10 b", "+10 a"] := by
    subst hvalue htext
    decide +kernel
  have hletters : sortFlags ["-n"] = ['n'] := by decide
  have hflags : ∀ c ∈ sortFlags ["-n"], c = 'r' ∨ c = 'n' := by simp [hletters]
  have hinput : Filter.input sort.usage env (some text) (sortFile ["-n"]) = .ok text := rfl
  obtain ⟨hcrash, hreturn⟩ := sort_orders_lines hflags hinput
  cases hresult : sort.execute? ["-n"] (some text) env with
  | none =>
    have hmany := (hcrash hresult).2.1
    rw [hlines] at hmany
    exact absurd hmany (by decide)
  | some outcome =>
    obtain ⟨sorted, rfl, -, -, horder⟩ := hreturn outcome hresult
    obtain ⟨hincreasing, hkept⟩ := horder (by decide) value hnumbered
    refine ⟨value, env, sorted, hlines ▸ hnumbered, hresult, hincreasing, ?_⟩
    rw [hkept (by decide), hties]

/-- A `nan` that counts as equal to the numbers around it may make the sort crash. -/
theorem sort_crashes_on_nan :
    ∃ env : Environment, env.readOperand "f" =
        .ok "6\n5\n5\n5\n5\n5\n5\n5\n5\n5\nnan\n1\n1\n1\n1\n1\n1\n1\n1\n1\n1" ∧
      sort.execute? ["-n", "f"] none env = none :=
  ⟨⟨"/", "/", "quest", ⟨[("/f", ⟨.fileDefault, "quest", "quest", ⟨0⟩,
      .file "6\n5\n5\n5\n5\n5\n5\n5\n5\n5\nnan\n1\n1\n1\n1\n1\n1\n1\n1\n1\n1"⟩)],
      "quest", "quest"⟩, {}, [], ⟨0⟩⟩, by decide +kernel, by decide +kernel⟩

/-- Lines with equal integers stay in order without `-r`. With it they are turned around, as all
lines are. -/
theorem sort_keeps_or_turns_ties (hflags : ∀ c ∈ sortFlags args, c = 'r' ∨ c = 'n')
    (hinput : Filter.input sort.usage env piped (sortFile args) = .ok text)
    (hnumber : 'n' ∈ sortFlags args) {value : String → Int}
    (hvalue : Numbered value (Text.lines text)) :
    ∃ sorted, sort.execute args piped env = (.ok (.text (Text.unlines sorted)), env) ∧
      sorted.Perm (Text.lines text) ∧
      ∀ k, sorted.filter (value · = k) =
        if 'r' ∈ sortFlags args then ((Text.lines text).filter (value · = k)).reverse
        else (Text.lines text).filter (value · = k) := by
  refine ⟨_, execute_sort hflags hinput, perm_arrange .., fun k => ?_⟩
  simpa [hnumber] using hvalue.filter_arrange ('r' ∈ sortFlags args) k

theorem sort_keeps_or_turns_ties_of_votes :
    ∃ (value : String → Int) (env : Environment) (sorted : List String),
      Numbered value ["2 ann", "5 bob", "2 cid", "5 dan"] ∧
      sort.execute ["-r", "-n"] (some "2 ann\n5 bob\n2 cid\n5 dan") env =
        (.ok (.text (Text.unlines sorted)), env) ∧
      sorted.filter (value · = 5) = ["5 dan", "5 bob"] := by
  generalize hvalue : (fun line => (leadingInteger? line).getD 0) = value
  generalize htext : "2 ann\n5 bob\n2 cid\n5 dan" = text
  generalize henv : (⟨"/", "/", "quest", ⟨[], "quest", "quest"⟩, {}, [], ⟨0⟩⟩ : Environment) = env
  have hlines : Text.lines text = ["2 ann", "5 bob", "2 cid", "5 dan"] := by
    subst htext
    decide +kernel
  have hnumbered : Numbered value (Text.lines text) := by
    subst hvalue htext
    decide +kernel
  have hties : (Text.lines text).filter (value · = 5) = ["5 bob", "5 dan"] := by
    subst hvalue htext
    decide +kernel
  have hletters : sortFlags ["-r", "-n"] = ['r', 'n'] := by decide
  have hflags : ∀ c ∈ sortFlags ["-r", "-n"], c = 'r' ∨ c = 'n' := by simp [hletters]
  have hinput : Filter.input sort.usage env (some text) (sortFile ["-r", "-n"]) = .ok text := rfl
  obtain ⟨sorted, hsorted, -, hturned⟩ :=
    sort_keeps_or_turns_ties hflags hinput (by decide) hnumbered
  refine ⟨value, env, sorted, hlines ▸ hnumbered, hsorted, ?_⟩
  rw [hturned, hties, if_pos (by decide)]
  rfl

/-- With `-r` the second of two lines with one integer comes first. -/
theorem sort_turns_tie :
    ∃ env : Environment, env.readOperand "f" = .ok "1 b\n1 a" ∧
      Numbered (fun _ => 1) (Text.lines "1 b\n1 a") ∧
      ∀ args ∈ [["-nr", "f"], ["-r", "-n", "f"]],
        sort.execute args none env = (.ok (.text "1 a\n1 b"), env) := by
  have hnumbered : Numbered (fun _ => 1) (Text.lines "1 b\n1 a") := by decide +kernel
  have hturned : arrange true true (Text.lines "1 b\n1 a") = ["1 a", "1 b"] := by
    have hties := hnumbered.filter_arrange true 1
    have hreversed : (Text.lines "1 b\n1 a").reverse = ["1 a", "1 b"] := by decide +kernel
    simpa [hreversed] using hties
  obtain ⟨env, hread⟩ : ∃ env : Environment, env.readOperand "f" = .ok "1 b\n1 a" :=
    ⟨⟨"/", "/", "quest", ⟨[("/f", ⟨.fileDefault, "quest", "quest", ⟨0⟩, .file "1 b\n1 a"⟩)],
      "quest", "quest"⟩, {}, [], ⟨0⟩⟩, by decide +kernel⟩
  have hwords : ∀ args ∈ [["-nr", "f"], ["-r", "-n", "f"]],
      (sortFlags args).Perm ['r', 'n'] ∧ sortFile args = some "f" := by
    decide +kernel
  refine ⟨env, hread, hnumbered, fun args hargs => ?_⟩
  obtain ⟨hletters, hfile⟩ := hwords args hargs
  have hflags : ∀ c ∈ sortFlags args, c = 'r' ∨ c = 'n' := by simp [hletters.mem_iff]
  have hnumber : 'n' ∈ sortFlags args := by simp [hletters.mem_iff]
  have hreverse : 'r' ∈ sortFlags args := by simp [hletters.mem_iff]
  have hinput : Filter.input sort.usage env none (sortFile args) = .ok "1 b\n1 a" := by
    rw [hfile]
    exact hread
  rw [execute_sort hflags hinput, decide_eq_true hnumber, decide_eq_true hreverse, hturned]
  rfl

end Command

end ShellTutor

import ShellTutor.Command.Builtin
import ShellTutor.Proofs.Command.Sorting
import ShellTutor.Proofs.Pager.Search

/-!
# The lines that match and the others

A search divides the lines of a file into those that match and those that do not, each under its
number, and its flags choose which of the two lists is shown and how. Flags may stand anywhere among
the words; a file with the name of a flag has to be named by a longer path.
-/

namespace ShellTutor

namespace Filter

open Pager (Matches)

def grepFlags : List String :=
  ["-i", "-n", "-v", "-c"]

/-- The words that are no flags: the pattern, the file, and words that are not looked at. -/
def grepOperands (args : List String) : List String :=
  args.filter (· ∉ grepFlags)

def numberedLines (lines : List String) : List (Nat × String) :=
  (lines.zipIdx 1).map Prod.swap

/-- The lines with a property, each under its number, in order. -/
structure Selects (lines : List String) (p : String → Prop) (chosen : List (Nat × String)) :
    Prop where
  mem_iff : ∀ n line, (n, line) ∈ chosen ↔ 1 ≤ n ∧ lines[n - 1]? = some line ∧ p line
  increasing : chosen.Pairwise fun a b => a.1 < b.1

/-- What a search in a named file shows of the lines that it has chosen. -/
structure ShowsChosen (args : List String) (pattern file : String) (chosen : List (Nat × String))
    (out : CommandOutput) : Prop where
  counted : "-c" ∈ args → out = .text (toString chosen.length)
  missed : "-c" ∉ args → chosen = [] →
    out = .notice ("\"" ++ pattern ++ "\" not found in " ++ file) ∧ out.data = ""
  listed : "-c" ∉ args → chosen ≠ [] →
    out = .lines (chosen.map fun hit => toString hit.1 ++ ":" ++ hit.2)
      (if "-v" ∈ args ∨ pattern = "" then none else some pattern)

theorem mem_numberedLines {lines : List String} {n : Nat} {line : String} :
    (n, line) ∈ numberedLines lines ↔ 1 ≤ n ∧ lines[n - 1]? = some line := by
  rw [numberedLines, List.mem_map, ← List.mk_mem_zipIdx_iff_le_and_getElem?_sub]
  constructor
  · rintro ⟨⟨line, n⟩, hmem, ⟨⟩⟩
    exact hmem
  · intro hmem
    exact ⟨(line, n), hmem, rfl⟩

theorem pairwise_numberedLines (lines : List String) :
    (numberedLines lines).Pairwise fun a b => a.1 < b.1 := by
  have hnumbers : (lines.zipIdx 1).Pairwise fun a b => a.2 < b.2 := by
    rw [← List.pairwise_map (f := Prod.snd) (R := (· < ·)), List.zipIdx_map_snd]
    exact List.pairwise_lt_range' 1
  exact List.pairwise_map.mpr hnumbers

theorem length_numberedLines (lines : List String) :
    (numberedLines lines).length = lines.length := by
  rw [numberedLines, List.length_map, List.length_zipIdx]

theorem selectMatches_eq (pattern : String) (inverted : Bool) (lines : List String) :
    selectMatches pattern inverted lines = (numberedLines lines).filter fun hit =>
      Text.occursIgnoringCase pattern hit.2 != inverted :=
  rfl

theorem selects_filter (test : String → Bool) {p : String → Prop}
    (h : ∀ line, test line = true ↔ p line) (lines : List String) :
    Selects lines p ((numberedLines lines).filter fun hit => test hit.2) := by
  refine ⟨fun n line => ?_, (pairwise_numberedLines lines).filter _⟩
  rw [List.mem_filter, mem_numberedLines, h, and_assoc]

section Divided

variable (pattern : String) (lines : List String)

theorem selects_matches :
    Selects lines (Matches pattern) (selectMatches pattern false lines) := by
  refine selects_filter (Text.occursIgnoringCase pattern · != false) (fun line => ?_) lines
  rw [Bool.bne_false]
  exact Text.occursIgnoringCase_iff pattern line

theorem selects_others :
    Selects lines (¬ Matches pattern ·) (selectMatches pattern true lines) := by
  refine selects_filter (Text.occursIgnoringCase pattern · != true) (fun line => ?_) lines
  rw [Bool.bne_true, Bool.not_eq_true', Bool.eq_false_iff]
  exact not_congr (Text.occursIgnoringCase_iff pattern line)

/-- No line is lost and none is in both lists. -/
theorem perm_selectMatches :
    (selectMatches pattern false lines ++ selectMatches pattern true lines).Perm
      (numberedLines lines) := by
  have hdivided := List.filter_append_perm
    (fun hit => Text.occursIgnoringCase pattern hit.2) (numberedLines lines)
  simpa [selectMatches_eq] using hdivided

theorem length_selectMatches :
    (selectMatches pattern false lines).length + (selectMatches pattern true lines).length =
      lines.length := by
  rw [← List.length_append, (perm_selectMatches pattern lines).length_eq, length_numberedLines]

theorem pairwise_merge_selectMatches :
    ((selectMatches pattern false lines).merge (selectMatches pattern true lines)
      (fun a b => a.1 ≤ b.1)).Pairwise fun a b => a.1 ≤ b.1 := by
  have hmerged : ((selectMatches pattern false lines).merge (selectMatches pattern true lines)
      (fun a b => a.1 ≤ b.1)).Pairwise fun a b => decide (a.1 ≤ b.1) = true := by
    exact List.pairwise_merge (byKey_trans Prod.fst) (byKey_total Prod.fst) _ _
      ((selects_matches pattern lines).increasing.imp fun h => decide_eq_true (Nat.le_of_lt h))
      ((selects_others pattern lines).increasing.imp fun h => decide_eq_true (Nat.le_of_lt h))
  exact hmerged.imp of_decide_eq_true

/-- Put together by their numbers, the two lists are the file. -/
theorem merge_selectMatches :
    (selectMatches pattern false lines).merge (selectMatches pattern true lines)
      (fun a b => a.1 ≤ b.1) = numberedLines lines := by
  have hperm := (List.merge_perm_append fun a b : Nat × String => decide (a.1 ≤ b.1)).trans
    (perm_selectMatches pattern lines)
  refine List.Perm.eq_of_pairwise ?_ (pairwise_merge_selectMatches pattern lines)
    ((pairwise_numberedLines lines).imp Nat.le_of_lt) hperm
  rintro ⟨n, line⟩ ⟨m, other⟩ hline hother hle hge
  -- a number stands for one line only
  obtain rfl : n = m := Nat.le_antisymm hle hge
  have hfirst := mem_numberedLines.mp (hperm.mem_iff.mp hline)
  have hsecond := mem_numberedLines.mp hother
  rw [Option.some.inj (hfirst.2.symm.trans hsecond.2)]

end Divided

theorem GrepOptions.foldl_word (args : List String) (o : GrepOptions) :
    args.foldl word o = {
      numbered := o.numbered || decide ("-n" ∈ args)
      inverted := o.inverted || decide ("-v" ∈ args)
      countOnly := o.countOnly || decide ("-c" ∈ args)
      operands := o.operands ++ grepOperands args } := by
  induction args generalizing o with
  | nil => simp [grepOperands]
  | cons arg rest ih =>
    rw [List.foldl_cons, ih, word]
    by_cases hflag : arg ∈ grepFlags
    · have hoperands : grepOperands (arg :: rest) = grepOperands rest := by
        rw [grepOperands, List.filter_cons, if_neg (by simpa using hflag), grepOperands]
      simp only [grepFlags, List.mem_cons, List.not_mem_nil, or_false] at hflag
      rcases hflag with rfl | rfl | rfl | rfl <;> simp [hoperands]
    · have hoperands : grepOperands (arg :: rest) = arg :: grepOperands rest := by
        rw [grepOperands, List.filter_cons, if_pos (by simpa using hflag), grepOperands]
      simp only [grepFlags, List.mem_cons, List.not_mem_nil, or_false, not_or] at hflag
      obtain ⟨hcase, hnumber, hinvert, hcount⟩ := hflag
      simp [hoperands, hcase, hnumber, hinvert, hcount, Ne.symm hnumber, Ne.symm hinvert,
        Ne.symm hcount]

theorem grep_eq {args : List String} {word file : String} {more : List String}
    (hoperands : grepOperands args = word :: file :: more) {env : Environment} {text : String}
    (hread : env.readOperand file = .ok text) (usage : String) (piped : Option String) :
    ∃ out, grep usage args piped env = .ok out ∧
      ShowsChosen args (Text.without ['\x22', '\x27'] word) file
        (selectMatches (Text.without ['\x22', '\x27'] word) ("-v" ∈ args) (Text.lines text)) out := by
  have hinput : input usage env piped (some file) = .ok text := hread
  rw [grep, GrepOptions.foldl_word]
  simp only [List.nil_append, hoperands, List.head?_cons, hinput, Outcome.ok_bind, Bool.false_or]
  generalize Text.without ['\x22', '\x27'] word = pattern
  generalize selectMatches pattern ("-v" ∈ args) (Text.lines text) = chosen
  by_cases hcount : "-c" ∈ args
  · refine ⟨.text (toString chosen.length), by simp [hcount], fun _ => rfl, ?_, ?_⟩
    · exact fun hlist => absurd hcount hlist
    · exact fun hlist => absurd hcount hlist
  · by_cases hnone : chosen = []
    · refine ⟨.notice ("\"" ++ pattern ++ "\" not found in " ++ file), by simp [hcount, hnone], ?_,
        fun _ _ => ⟨rfl, rfl⟩, ?_⟩
      · exact fun hyes => absurd hyes hcount
      · exact fun _ hsome => absurd hnone hsome
    · refine ⟨_, ?_, fun hyes => absurd hyes hcount, fun _ hempty => absurd hempty hnone,
        fun _ _ => rfl⟩
      by_cases hinvert : "-v" ∈ args <;> by_cases hblank : pattern = "" <;>
        simp [hcount, hnone, hinvert, hblank, showMatch]

end Filter

namespace Command

open ShellTutor.Filter
open Pager (Matches)

/-- A search divides the lines of a file. Without `-v` it shows the lines in which the pattern
occurs when case is ignored, and with `-v` the others, each under its number; with `-c` it shows how
many they are. Put together, the two lists are the file. -/
theorem grep_partitions_lines {env : Environment} {file text : String}
    (hread : env.readOperand file = .ok text) (word : String) {pattern : String}
    (hpattern : Text.without ['\x22', '\x27'] word = pattern) :
    ∃ hits others : List (Nat × String),
      Selects (Text.lines text) (Matches pattern) hits ∧
      Selects (Text.lines text) (¬ Matches pattern ·) others ∧
      hits.merge others (fun a b => a.1 ≤ b.1) = numberedLines (Text.lines text) ∧
      hits.length + others.length = (Text.lines text).length ∧
      ∀ (args more : List String) (piped : Option String),
        grepOperands args = word :: file :: more →
        ∃ out, grep.execute args piped env = (.ok out, env) ∧
          ShowsChosen args pattern file (if "-v" ∈ args then others else hits) out := by
  subst hpattern
  refine ⟨_, _, selects_matches .., selects_others .., merge_selectMatches ..,
    length_selectMatches .., fun args more piped hoperands => ?_⟩
  obtain ⟨out, hout, hshows⟩ := grep_eq hoperands hread grep.usage piped
  refine ⟨out, Prod.ext hout rfl, ?_⟩
  by_cases hinvert : "-v" ∈ args
  · simpa [hinvert] using hshows
  · simpa [hinvert] using hshows

theorem grep_partitions_lines_of_schools :
    ∃ (env : Environment) (hits others : List (Nat × String)),
      env.readOperand "f" = .ok "École\n-\nune école" ∧
      hits.merge others (fun a b => a.1 ≤ b.1) = [(1, "École"), (2, "-"), (3, "une école")] ∧
      (1, "École") ∈ hits ∧ (2, "-") ∈ others ∧
      grep.execute ["-c", "\"ÉC\"", "f"] none env = (.ok (.text (toString hits.length)), env) ∧
      grep.execute ["\"ÉC\"", "-v", "f", "-c"] none env =
        (.ok (.text (toString others.length)), env) := by
  generalize htext : "École\n-\nune école" = text
  have hlines : Text.lines text = ["École", "-", "une école"] := by
    subst htext
    decide +kernel
  obtain ⟨env, hread⟩ : ∃ env : Environment, env.readOperand "f" = .ok text := by
    subst htext
    exact ⟨⟨"/", "/", "quest", ⟨[("/f", ⟨.fileDefault, "quest", "quest", ⟨0⟩,
      .file "École\n-\nune école"⟩)], "quest", "quest"⟩, {}, [], ⟨0⟩⟩, by decide +kernel⟩
  have hmatch : Matches "ÉC" "École" :=
    (Text.occursIgnoringCase_iff _ _).mp (by decide +kernel)
  have hother : ¬ Matches "ÉC" "-" :=
    (not_congr (Text.occursIgnoringCase_iff _ _)).mp (by decide +kernel)
  have hpattern : Text.without ['\x22', '\x27'] "\"ÉC\"" = "ÉC" := by decide
  obtain ⟨hits, others, hhits, hothers, hmerged, -, hanswers⟩ :=
    grep_partitions_lines hread "\"ÉC\"" hpattern
  obtain ⟨out, hcounts, hshows⟩ := hanswers ["-c", "\"ÉC\"", "f"] [] none (by decide)
  obtain ⟨out', hcounts', hshows'⟩ := hanswers ["\"ÉC\"", "-v", "f", "-c"] [] none (by decide)
  rw [hshows.counted (by decide), if_neg (by decide)] at hcounts
  rw [hshows'.counted (by decide), if_pos (by decide)] at hcounts'
  rw [hlines] at hhits hothers hmerged
  exact ⟨env, hits, others, hread, hmerged, (hhits.mem_iff 1 _).mpr ⟨by decide, rfl, hmatch⟩,
    (hothers.mem_iff 2 _).mpr ⟨by decide, rfl, hother⟩, hcounts, hcounts'⟩

end Command

end ShellTutor

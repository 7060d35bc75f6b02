import ShellTutor.Proofs.Command.Partition
import ShellTutor.Proofs.Screen.Highlight

/-!
# Lines with a term to mark

Two parts of a session show lines with a term to mark: a pager, where the remembered term occurs,
and a search, for the lines that it selects. Both look for the term in the lower-case form of the
line, which is where the marks are looked for as well, and neither has an empty term. A search may
put the number of a line in front of it, but digits and a colon have no case, so what occurs in the
line still occurs behind them. That is why such a line shows a mark, if its characters keep their
size in lower case.
-/

namespace ShellTutor

open Text (lowercase IsCaseless)
open Pager (Matches)

/-- If the line has a term to mark, the term occurs in it. -/
def OutputLine.FlagsMatch (line : OutputLine) : Prop :=
  ∀ term, line.highlight = some term → line.IsMarkable ∧ term ≠ "" ∧ Matches term line.text

theorem OutputLine.flagsMatch_of_plain {line : OutputLine} (h : line.highlight = none) :
    line.FlagsMatch := by
  intro term hterm
  rw [h] at hterm
  cases hterm

namespace Pager

variable {p q : Pager} {key : PagerKey}

theorem flagsMatch_showLine (hp : p.term ≠ some "") (text : String) :
    (p.showLine text).FlagsMatch := by
  intro term hterm
  obtain ⟨hremembered, hmatches⟩ := (p.highlight_showLine text term).mp hterm
  exact ⟨Or.inr rfl, fun hempty => hp (hempty ▸ hremembered), hmatches⟩

theorem flagsMatch_render (hp : p.term ≠ some "") : ∀ line ∈ p.render, line.FlagsMatch := by
  have hwindow : ∀ line ∈ p.window.map p.showLine, line.FlagsMatch := by
    intro line hline
    obtain ⟨text, -, rfl⟩ := List.mem_map.mp hline
    exact flagsMatch_showLine hp text
  rw [render, List.cons_append, List.forall_mem_cons, List.forall_mem_append,
    List.forall_mem_singleton]
  exact ⟨OutputLine.flagsMatch_of_plain rfl, hwindow, OutputLine.flagsMatch_of_plain rfl⟩

theorem Leads.flagsMatch {lines : List OutputLine} (h : p.Leads key lines q)
    (hp : p.term ≠ some "") : (∀ line ∈ lines, line.FlagsMatch) ∧ q.term ≠ some "" := by
  cases h with
  | stays _ hplain =>
    exact ⟨List.forall_mem_singleton.mpr (OutputLine.flagsMatch_of_plain hplain), hp⟩
  | moves => exact ⟨flagsMatch_render (p := p.moveTo _) hp, hp⟩
  | clears => exact ⟨flagsMatch_render (p := { p with term := none }) nofun, nofun⟩
  | @finds term i hterm _ _ =>
    have hfound : (p.found term i).term ≠ some "" := fun h => hterm (Option.some.inj h)
    refine ⟨List.forall_mem_append.mpr ⟨flagsMatch_render hfound, ?_⟩, hfound⟩
    exact List.forall_mem_singleton.mpr (OutputLine.flagsMatch_of_plain rfl)

/-- Whatever the key, a pager shows nothing else with a term to mark, and goes on to remember no
empty term. -/
theorem flagsMatch_handle (hp : p.term ≠ some "") (key : PagerKey) :
    (∀ line ∈ (p.handle key).1, line.FlagsMatch) ∧
      ∀ q, (p.handle key).2 = some q → q.term ≠ some "" := by
  refine ⟨?_, fun q hq => ((leads_of_handle hq).flagsMatch hp).2⟩
  match hkey : p.handle? key with
  | none =>
    rw [handle, hkey]
    exact List.forall_mem_nil _
  | some (lines, none) =>
    obtain rfl := eq_quit_of_handle? hkey
    exact List.forall_mem_singleton.mpr (OutputLine.flagsMatch_of_plain rfl)
  | some (lines, some q) =>
    rw [handle_of_handle? hkey]
    exact ((leads_of_handle? hkey).flagsMatch hp).1

theorem term_of_handleAll {keys : List PagerKey} (hp : p.term ≠ some "")
    (h : p.handleAll keys = some q) : q.term ≠ some "" := by
  induction keys generalizing p with
  | nil =>
    obtain rfl : p = q := Option.some.inj h
    exact hp
  | cons key rest ih =>
    obtain ⟨next, hfirst, hrest⟩ := Option.bind_eq_some_iff.mp h
    exact ih ((flagsMatch_handle hp key).2 next hfirst) hrest

end Pager

namespace Filter

/-- The number of a line has no case. -/
theorem isCaseless_of_mem_number {n : Nat} {c : Char} (h : c ∈ (toString n ++ ":").toList) :
    IsCaseless c := by
  rw [String.toList_append, List.mem_append] at h
  rcases h with hdigit | hcolon
  · have hrepr : (toString n).toList = Nat.toDigits 10 n := Nat.toList_repr
    rw [hrepr] at hdigit
    obtain ⟨hlow, hhigh⟩ :=
      Char.isDigit_iff_toNat.mp (Nat.isDigit_of_mem_toDigits (by decide) (by decide) hdigit)
    have hdigits : ∀ code ≤ '9'.toNat, '0'.toNat ≤ code →
        Text.inRanges Text.casedLetters code = false := by
      decide +kernel
    exact hdigits c.toNat hhigh hlow
  · obtain rfl : c = ':' := List.mem_singleton.mp hcolon
    decide +kernel

/-- What occurs in a line occurs in it when it is shown, with its number or without. -/
theorem matches_showMatch {pattern : String} {numbered : Bool} {hit : Nat × String}
    (h : Matches pattern hit.2) : Matches pattern (showMatch numbered hit) := by
  rw [showMatch]
  split
  · refine h.trans (List.IsSuffix.isInfix ?_)
    rw [Text.toList_lowercase, Text.toList_lowercase, String.toList_append]
    exact Text.lowerChars_suffix (fun c => isCaseless_of_mem_number) hit.2.toList
  · exact h

/-- A search flags a line only with its pattern, and only lines in which that occurs. -/
theorem flagsMatch_grep {usage : String} {args : List String} {piped : Option String}
    {env : Environment} {lines : List String} {term : String}
    (h : grep usage args piped env = .ok (.lines lines (some term))) :
    ∀ line ∈ lines, ((OutputLine.output line).withHighlight (some term)).FlagsMatch := by
  rw [grep] at h
  simp only at h
  split at h
  · cases h
  · obtain ⟨text, -, h⟩ := Outcome.bind_eq_ok.mp h
    split at h
    · cases h
    · split at h
      · split at h <;> cases h
      · simp only [Outcome.pure_eq_ok, Except.ok.injEq, CommandOutput.lines.injEq,
          Option.ite_none_right_eq_some, Option.some.injEq, Bool.and_eq_true, Bool.not_eq_true',
          decide_eq_true_eq] at h
        obtain ⟨rfl, ⟨hplain, hpattern⟩, rfl⟩ := h
        rw [hplain]
        intro line hline
        obtain ⟨hit, hhit, rfl⟩ := List.mem_map.mp hline
        have hmatches : Matches _ hit.2 :=
          (((selects_matches _ _).mem_iff hit.1 hit.2).mp hhit).2.2
        rintro term hterm
        obtain rfl := Option.some.inj hterm
        exact ⟨Or.inl rfl, hpattern, matches_showMatch hmatches⟩

end Filter

namespace OutputLine

open Screen (Segment Marks)

/-- The lines that are shown with a term to mark: those of a pager, however its window was moved
since it was opened, and those that a search has selected. -/
inductive Flagged : OutputLine → Prop
  | paged {title content : String} {pageSize : Nat} {keys : List PagerKey} {p : Pager}
      (h : (Pager.ofText title content pageSize).handleAll keys = some p) {key : PagerKey}
      {line : OutputLine} (hline : line ∈ (p.handle key).1) {term : String}
      (hterm : line.highlight = some term) : Flagged line
  | selected {usage : String} {args : List String} {piped : Option String} {env : Environment}
      {lines : List String} {term : String}
      (h : Filter.grep usage args piped env = .ok (.lines lines (some term))) {line : String}
      (hline : line ∈ lines) : Flagged ((OutputLine.output line).withHighlight (some term))

theorem Flagged.flagsMatch {line : OutputLine} (h : line.Flagged) : line.FlagsMatch := by
  cases h with
  | @paged title content pageSize keys p h key _ hline =>
    have hopened : (Pager.ofText title content pageSize).term ≠ some "" := by simp [Pager.ofText]
    exact (Pager.flagsMatch_handle (Pager.term_of_handleAll hopened h) key).1 line hline
  | selected h hline => exact Filter.flagsMatch_grep h _ hline

/-- A text whose characters keep their size in lower case is shown with marks at the occurrences of
the term, found from left to right in the lower-case forms, and nowhere else. So a line that is
flagged by a pager or a search shows at least one mark. -/
theorem highlight_marks_matches {text : String} (hkeeps : ∀ c ∈ text.toList, Text.KeepsSize c)
    (term : String) :
    (term ≠ "" → ∃ segments,
      Screen.highlight? text term = some (String.join (segments.map Segment.render)) ∧
        Marks (lowercase term).toList (lowercase text).toList text.toList segments) ∧
    ∀ kind, Flagged ⟨text, kind, some term⟩ → ∃ segments mark,
      render? ⟨text, kind, some term⟩ true = some (String.join (segments.map Segment.render)) ∧
        Marks (lowercase term).toList (lowercase text).toList text.toList segments ∧
        mark ≠ [] ∧ Segment.marked mark ∈ segments := by
  have hshown : term ≠ "" → ∃ segments,
      Screen.highlight? text term = some (String.join (segments.map Segment.render)) ∧
        Marks (lowercase term).toList (lowercase text).toList text.toList segments := by
    intro hterm
    obtain ⟨segments, hsegments, hmarks⟩ :=
      Screen.exists_marks (mt String.toList_eq_nil_iff.mp hterm) hkeeps
    refine ⟨segments, by rw [Screen.highlight?, hsegments, Option.map_some], ?_⟩
    rw [Text.toList_lowercase, Text.toList_lowercase]
    exact hmarks
  refine ⟨hshown, fun kind hflagged => ?_⟩
  obtain ⟨hkind, hterm, hmatches⟩ := hflagged.flagsMatch term rfl
  obtain ⟨segments, hsegments, hmarks⟩ := hshown hterm
  have hneedle : (lowercase term).toList ≠ [] := by
    rw [Text.toList_lowercase]
    exact mt (Text.lowerChars_eq_nil_iff.trans String.toList_eq_nil_iff).mp hterm
  obtain ⟨mark, hmark, hmem⟩ := hmarks.exists_marked hneedle hmatches
  exact ⟨segments, mark, (render?_of_highlight hkind rfl).trans hsegments, hmarks, hmark, hmem⟩

theorem highlight_marks_matches_of_numbered_line :
    (∀ c ∈ "2:Ärger".toList, Text.KeepsSize c) ∧ Flagged ⟨"2:Ärger", .output, some "ÄR"⟩ ∧
      ∃ segments mark,
        render? ⟨"2:Ärger", .output, some "ÄR"⟩ true =
          some (String.join (segments.map Segment.render)) ∧
        Marks (lowercase "ÄR").toList (lowercase "2:Ärger").toList "2:Ärger".toList segments ∧
        mark ≠ [] ∧ Segment.marked mark ∈ segments := by
  have hall : ("2:Ärger".toList.all fun c => decide (Text.KeepsSize c)) = true := by decide +kernel
  have hkeeps : ∀ c ∈ "2:Ärger".toList, Text.KeepsSize c :=
    fun c hc => of_decide_eq_true (List.all_eq_true.mp hall c hc)
  have hselected : Filter.grep "" ["-n", "'ÄR'"] (some "Hut\nÄrger")
      ⟨"/", "/", "quest", .empty "quest" "quest" ⟨0⟩, {}, [], ⟨60⟩⟩ =
        .ok (.lines ["2:Ärger"] (some "ÄR")) := by
    rfl
  have hflagged : Flagged ⟨"2:Ärger", .output, some "ÄR"⟩ :=
    .selected hselected (List.mem_singleton_self _)
  exact ⟨hkeeps, hflagged, (highlight_marks_matches hkeeps "ÄR").2 .output hflagged⟩

end OutputLine

end ShellTutor

import ShellTutor.Proofs.Text.Lowercase
import ShellTutor.Screen.Render

/-!
# Marks in a text

The occurrences of a term are looked for in the lower-case form of a text, and the text itself is
cut at the positions found. Whatever the text, nothing of it is lost and nothing but the escape
sequences is added; but where a position found falls inside a character of the text, there is
nothing to show. For this the text must hold a character that grows in lower case and one that
shrinks, as otherwise its length tells that the positions are not its own.

Where each character keeps its size, all positions found are boundaries of the text, and the marks
are at the occurrences that a scan finds, with no other occurrence outside them.
-/

namespace ShellTutor

namespace Screen

open Text (byteLength IsBoundary OccursAt Scan KeepsSize cutPlaces cutAtByte lowerChars splitText)

def Segment.isMarked : Segment → Bool
  | .plain _ => false
  | .marked _ => true

/-- The positions at which the marked segments, or the others, begin and end, when the first segment
begins at `start`. -/
def spans (marked : Bool) : Nat → List Segment → List (Nat × Nat)
  | _, [] => []
  | start, segment :: rest =>
    (if segment.isMarked = marked then [(start, start + byteLength segment.chars)] else []) ++
      spans marked (start + byteLength segment.chars) rest

/-- The segments of a text whose marks are where a needle is found in the lower-case form of it. -/
structure Marks (needle lower text : List Char) (segments : List Segment) : Prop where
  whole : segments.flatMap Segment.chars = text
  /-- The marks begin and end, in bytes, where the occurrences that a scan finds do. -/
  found : ∃ found, Scan needle lower 0 found ∧
    spans true 0 segments = found.map fun i => (i, i + byteLength needle)
  /-- No occurrence begins in what is not marked. -/
  nothingElse : ∀ gap ∈ spans false 0 segments, ∀ i, gap.1 ≤ i → i < gap.2 →
    ¬ OccursAt needle lower i

variable {width start : Nat} {pieces : List (List Char)} {needle lower text term rest : List Char}
  {segments : List Segment}

theorem cutAlong_cons_eq_some_iff {piece next : List Char} :
    cutAlong width (piece :: next :: pieces) text = some segments ↔
      ∃ before mark back later, text = before ++ (mark ++ back) ∧
        byteLength before = byteLength piece ∧ byteLength mark = width ∧
        cutAlong width (next :: pieces) back = some later ∧
        segments = .plain before :: .marked mark :: later := by
  simp only [cutAlong, Option.bind_eq_bind, Option.bind_eq_some_iff, Prod.exists, Option.pure_def,
    Option.some.injEq, Text.cutAtByte_eq_some_iff]
  constructor
  · rintro ⟨before, -, ⟨rfl, hbefore⟩, mark, back, ⟨rfl, hmark⟩, later, hlater, rfl⟩
    exact ⟨before, mark, back, later, rfl, hbefore, hmark, hlater, rfl⟩
  · rintro ⟨before, mark, back, later, rfl, hbefore, hmark, hlater, rfl⟩
    exact ⟨before, _, ⟨rfl, hbefore⟩, mark, back, ⟨rfl, hmark⟩, later, hlater, rfl⟩

/-- The segments put together are the text. -/
theorem chars_of_cutAlong (h : cutAlong width pieces text = some segments) :
    segments.flatMap Segment.chars = text := by
  induction pieces generalizing text segments with
  | nil =>
    cases h
    simp [Segment.chars]
  | cons piece pieces ih =>
    cases pieces with
    | nil =>
      cases h
      simp [Segment.chars]
    | cons next pieces =>
      obtain ⟨before, mark, back, later, rfl, -, -, hlater, rfl⟩ := cutAlong_cons_eq_some_iff.mp h
      rw [List.flatMap_cons, List.flatMap_cons, ih hlater]
      rfl

/-- The marks are at the cuts, by their positions in the other text. -/
theorem marks_of_cutAlong (h : cutAlong width pieces text = some segments) (start : Nat) :
    spans true start segments = (cutPlaces width start pieces).map fun i => (i, i + width) := by
  induction pieces generalizing text segments start with
  | nil =>
    cases h
    rfl
  | cons piece pieces ih =>
    cases pieces with
    | nil =>
      cases h
      rfl
    | cons next pieces =>
      obtain ⟨before, mark, back, later, -, hbefore, hmark, hlater, rfl⟩ :=
        cutAlong_cons_eq_some_iff.mp h
      have hrest := ih hlater (start + byteLength piece + width)
      simp [spans, Segment.isMarked, Segment.chars, cutPlaces, hbefore, hmark, hrest]

/-- Between the cuts of a scan nothing is left to find. -/
theorem gaps_of_cutAlong
    (hscan : Scan needle lower start (cutPlaces (byteLength needle) start pieces))
    (h : cutAlong (byteLength needle) pieces text = some segments) :
    ∀ gap ∈ spans false start segments, ∀ i, gap.1 ≤ i → i < gap.2 → ¬ OccursAt needle lower i := by
  induction pieces generalizing text segments start with
  | nil =>
    cases h
    cases hscan with
    | done hnone => simpa [spans, Segment.isMarked] using fun i hi _ => hnone i hi
  | cons piece pieces ih =>
    cases pieces with
    | nil =>
      cases h
      cases hscan with
      | done hnone => simpa [spans, Segment.isMarked] using fun i hi _ => hnone i hi
    | cons next pieces =>
      obtain ⟨before, mark, back, later, -, hbefore, hmark, hlater, rfl⟩ :=
        cutAlong_cons_eq_some_iff.mp h
      cases hscan with
      | found _ _ hfirst hrest =>
        have hgaps := ih hrest hlater
        rw [← hbefore, ← hmark] at hgaps
        rw [← hbefore] at hfirst
        intro gap hgap
        simp only [spans, Segment.isMarked, Segment.chars, if_true, Bool.true_eq_false, if_false,
          List.nil_append, List.singleton_append, List.mem_cons] at hgap
        rcases hgap with rfl | hgap
        · exact hfirst
        · exact hgaps gap hgap

/-- What stands behind `front` can be cut just if each cut begins and ends at a boundary. -/
theorem exists_cutAlong_iff (width : Nat) (pieces : List (List Char)) (front rest : List Char) :
    (∃ segments, cutAlong width pieces rest = some segments) ↔
      ∀ i ∈ cutPlaces width (byteLength front) pieces,
        IsBoundary (front ++ rest) i ∧ IsBoundary (front ++ rest) (i + width) := by
  induction pieces generalizing front rest with
  | nil => simp [cutAlong, cutPlaces]
  | cons piece pieces ih =>
    cases pieces with
    | nil => simp [cutAlong, cutPlaces]
    | cons next pieces =>
      rw [cutPlaces, List.forall_mem_cons, Text.isBoundary_append]
      have hback : ∀ before mark back : List Char, byteLength before = byteLength piece →
          byteLength mark = width →
            ((∃ later, cutAlong width (next :: pieces) back = some later) ↔
              ∀ i ∈ cutPlaces width (byteLength front + byteLength piece + width) (next :: pieces),
                IsBoundary (front ++ (before ++ (mark ++ back))) i ∧
                  IsBoundary (front ++ (before ++ (mark ++ back))) (i + width)) := by
        intro before mark back hbefore hmark
        have hrest := ih (front ++ (before ++ mark)) back
        rw [Text.byteLength_append, Text.byteLength_append, hbefore, hmark, ← Nat.add_assoc] at hrest
        simpa only [List.append_assoc] using hrest
      constructor
      · rintro ⟨segments, h⟩
        obtain ⟨before, mark, back, later, rfl, hbefore, hmark, hlater, -⟩ :=
          cutAlong_cons_eq_some_iff.mp h
        refine ⟨⟨⟨before, _, rfl, hbefore⟩, ?_⟩, (hback before mark back hbefore hmark).mp ⟨_, hlater⟩⟩
        rw [Nat.add_assoc, Text.isBoundary_append, ← hbefore, Text.isBoundary_append]
        exact ⟨mark, back, rfl, hmark⟩
      · rintro ⟨⟨⟨before, rest, rfl, hbefore⟩, hend⟩, hlater⟩
        rw [Nat.add_assoc, Text.isBoundary_append, ← hbefore, Text.isBoundary_append] at hend
        obtain ⟨mark, back, rfl, hmark⟩ := hend
        obtain ⟨later, hcut⟩ := (hback before mark back hbefore hmark).mpr hlater
        exact ⟨_, cutAlong_cons_eq_some_iff.mpr
          ⟨before, mark, back, later, rfl, hbefore, hmark, hcut, rfl⟩⟩

/-- A text is cut into segments unless it has the length of its lower-case form and an occurrence of
the term begins or ends inside one of its characters. -/
theorem segments?_eq_none_iff (text term : List Char) :
    segments? text term = none ↔
      term ≠ [] ∧ byteLength (lowerChars text) = byteLength text ∧
        ∃ found, Scan (lowerChars term) (lowerChars text) 0 found ∧
          ∃ i ∈ found, ¬ (IsBoundary text i ∧
            IsBoundary text (i + byteLength (lowerChars term))) := by
  have hempty : (lowerChars term).isEmpty = true ↔ term = [] :=
    List.isEmpty_iff.trans Text.lowerChars_eq_nil_iff
  rw [segments?]
  by_cases hterm : term = []
  · subst hterm
    simp [Text.lowerChars, Text.lowerAfter]
  · by_cases hlength : byteLength (lowerChars text) = byteLength text
    · have hscan := Text.scan_splitText (mt Text.lowerChars_eq_nil_iff.mp hterm) (lowerChars text)
      have hcut := exists_cutAlong_iff (byteLength (lowerChars term))
        (splitText (lowerChars term) (lowerChars text)) [] text
      rw [List.nil_append, ← Option.isSome_iff_exists] at hcut
      have hguard : ((lowerChars term).isEmpty ||
          byteLength (lowerChars text) != byteLength text) = false := by
        simp [hlength, mt hempty.mp hterm]
      simp only [hguard, Bool.false_eq_true, if_false]
      rw [← Option.not_isSome_iff_eq_none, hcut]
      simp only [hterm, hlength, ne_eq, not_false_eq_true, true_and]
      constructor
      · intro hsome
        obtain ⟨i, hinside⟩ := Classical.not_forall.mp hsome
        obtain ⟨hi, hinside⟩ := Classical.not_imp.mp hinside
        exact ⟨_, hscan, i, hi, hinside⟩
      · rintro ⟨found, hfound, i, hi, hinside⟩ hall
        rw [← hscan.unique hfound] at hi
        exact hinside (hall i hi)
    · simp [hlength]

/-- Nothing of a text is lost when it is cut into segments. -/
theorem chars_of_segments? (h : segments? text term = some segments) :
    segments.flatMap Segment.chars = text := by
  rw [segments?] at h
  split at h
  · cases h
    simp [Segment.chars]
  · exact chars_of_cutAlong h

/-- Where each character keeps its size, a text is cut at its occurrences. -/
theorem exists_marks (hterm : term ≠ []) (hkeeps : ∀ c ∈ text, KeepsSize c) :
    ∃ segments, segments? text term = some segments ∧
      Marks (lowerChars term) (lowerChars text) text segments := by
  have hsizes : (lowerChars text).map Char.utf8Size = text.map Char.utf8Size :=
    Text.map_utf8Size_lowerAfter hkeeps
  have hlength := Text.byteLength_of_map_utf8Size hsizes
  have hneedle : lowerChars term ≠ [] := mt Text.lowerChars_eq_nil_iff.mp hterm
  have hscan := Text.scan_splitText hneedle (lowerChars text)
  have hcut : segments? text term =
      cutAlong (byteLength (lowerChars term)) (splitText (lowerChars term) (lowerChars text))
        text := by
    rw [segments?]
    simp [hlength, hneedle]
  have hboundaries := (exists_cutAlong_iff _ _ [] text).mpr fun i hi => by
    have hat := (hscan.occursAt i hi).isBoundary
    exact ⟨hat.1.of_map_utf8Size hsizes, hat.2.of_map_utf8Size hsizes⟩
  obtain ⟨segments, hsegments⟩ := hboundaries
  refine ⟨segments, hcut.trans hsegments, ?_⟩
  constructor
  case whole => exact chars_of_cutAlong hsegments
  case found => exact ⟨_, hscan, marks_of_cutAlong hsegments 0⟩
  case nothingElse => exact gaps_of_cutAlong hscan hsegments

theorem exists_marked_of_mem_spans {span : Nat × Nat} (h : span ∈ spans true start segments) :
    ∃ cs, Segment.marked cs ∈ segments ∧ span.2 = span.1 + byteLength cs := by
  induction segments generalizing start with
  | nil => cases h
  | cons segment rest ih =>
    rw [spans] at h
    rcases List.mem_append.mp h with hhere | hlater
    · cases segment with
      | plain cs => simp [Segment.isMarked] at hhere
      | marked cs =>
        simp only [Segment.isMarked, if_true, List.mem_singleton] at hhere
        exact ⟨cs, List.mem_cons_self .., by rw [hhere]; rfl⟩
    · obtain ⟨cs, hmem, hlength⟩ := ih hlater
      exact ⟨cs, List.mem_cons_of_mem _ hmem, hlength⟩

/-- Where there is an occurrence, something is marked. -/
theorem Marks.exists_marked (h : Marks needle lower text segments) (hneedle : needle ≠ [])
    (hin : needle <:+: lower) : ∃ cs, cs ≠ [] ∧ Segment.marked cs ∈ segments := by
  obtain ⟨found, hscan, hspans⟩ := h.found
  obtain ⟨i, later, rfl⟩ := List.exists_cons_of_ne_nil (hscan.ne_nil hin)
  have hmem : (i, i + byteLength needle) ∈ spans true 0 segments := by
    rw [hspans]
    exact List.mem_cons_self ..
  obtain ⟨cs, hcs, hlength⟩ := exists_marked_of_mem_spans hmem
  refine ⟨cs, ?_, hcs⟩
  rintro rfl
  have hzero : byteLength needle = 0 := Nat.add_left_cancel hlength
  exact hneedle (Text.byteLength_eq_zero_iff.mp hzero)

end Screen

namespace OutputLine

open Screen (Segment Marks)
open Text (byteLength lowercase IsBoundary Scan)

variable {line : OutputLine} {term : String}

/-- A line in which something can be marked. -/
def IsMarkable (line : OutputLine) : Prop :=
  line.kind = .output ∨ line.kind = .pager

theorem render?_of_highlight (hkind : line.IsMarkable) (hterm : line.highlight = some term) :
    line.render? true = Screen.highlight? line.text term := by
  rcases hkind with hkind | hkind <;> simp [render?, hkind, hterm]

/-- On a terminal with colour nothing of a line is lost: what is shown of it is its text with
reverse video around some parts. There is nothing to show just if the text has the length of its
lower-case form and an occurrence found there begins or ends inside a character of the text. -/
theorem render_loses_nothing (hkind : line.IsMarkable) (hterm : line.highlight = some term) :
    (∀ shown, line.render? true = some shown → ∃ segments : List Segment,
      shown = String.join (segments.map Segment.render) ∧
        segments.flatMap Segment.chars = line.text.toList) ∧
    (line.render? true = none ↔
      term ≠ "" ∧
        byteLength (lowercase line.text).toList = byteLength line.text.toList ∧
        ∃ found, Scan (lowercase term).toList (lowercase line.text).toList 0 found ∧
          ∃ i ∈ found, ¬ (IsBoundary line.text.toList i ∧
            IsBoundary line.text.toList (i + byteLength (lowercase term).toList))) := by
  rw [render?_of_highlight hkind hterm, Screen.highlight?]
  constructor
  · intro shown hshown
    obtain ⟨segments, hsegments, rfl⟩ := Option.map_eq_some_iff.mp hshown
    exact ⟨segments, rfl, Screen.chars_of_segments? hsegments⟩
  · rw [Option.map_eq_none_iff, Screen.segments?_eq_none_iff, ne_eq, String.toList_eq_nil_iff]
    simp only [Text.toList_lowercase]

/-- The capital dotted I grows by a byte in lower case and the capital sharp s shrinks by one. So
an occurrence behind the first begins a byte too late. -/
theorem render_loses_nothing_of_words :
    (∃ shown, render? ⟨"Error and ERROR", .pager, some "error"⟩ true = some shown ∧
      ∃ segments : List Segment, shown = String.join (segments.map Segment.render) ∧
        segments.flatMap Segment.chars = "Error and ERROR".toList) ∧
    ∃ found, Scan (lowercase "ß").toList (lowercase "İẞ").toList 0 found ∧
      ∃ i ∈ found, ¬ (IsBoundary "İẞ".toList i ∧
        IsBoundary "İẞ".toList (i + byteLength (lowercase "ß").toList)) := by
  constructor
  · have hsome : (render? ⟨"Error and ERROR", .pager, some "error"⟩ true).isSome = true := by
      decide +kernel
    obtain ⟨shown, hshown⟩ := Option.isSome_iff_exists.mp hsome
    exact ⟨shown, hshown, (render_loses_nothing (Or.inr rfl) rfl).1 shown hshown⟩
  · have hnone : render? ⟨"İẞ", .output, some "ß"⟩ true = none := by decide +kernel
    exact ((render_loses_nothing (Or.inl rfl) rfl).2.mp hnone).2.2

/-- Of this line there is nothing to show. -/
theorem render_cuts_character : render? ⟨"İẞ", .output, some "ß"⟩ true = none := by
  decide +kernel

end OutputLine

end ShellTutor

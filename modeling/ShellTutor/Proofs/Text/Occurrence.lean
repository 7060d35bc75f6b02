import ShellTutor.Text.Search
import ShellTutor.Text.Utf8

/-!
# Occurrences by their byte positions

A position in a text is a number of bytes, and only where a character begins can the text be cut. An
occurrence is told by the position at which it begins. A scan goes from left to right: it takes the
first occurrence, goes on behind it, and ends when there is none left. The pieces that `splitText`
gives are what such a scan leaves between the occurrences.
-/

namespace ShellTutor.Text

variable {cs front back needle text rest : List Char} {n i start : Nat}

theorem byteLength_append (xs ys : List Char) :
    byteLength (xs ++ ys) = byteLength xs + byteLength ys := by
  induction xs with
  | nil => rw [List.nil_append, byteLength, Nat.zero_add]
  | cons x xs ih => rw [List.cons_append, byteLength, byteLength, ih, Nat.add_assoc]

theorem byteLength_eq_zero_iff : byteLength cs = 0 ↔ cs = [] := by
  cases cs with
  | nil => simp [byteLength]
  | cons c cs =>
    have hsize := c.utf8Size_pos
    simp only [byteLength, reduceCtorEq, iff_false]
    omega

/-- A position of a text at which a character begins, or the end. -/
def IsBoundary (cs : List Char) (n : Nat) : Prop :=
  ∃ front back, cs = front ++ back ∧ byteLength front = n

theorem cutAtByte_eq_some_iff :
    cutAtByte n cs = some (front, back) ↔ cs = front ++ back ∧ byteLength front = n := by
  induction cs generalizing n front with
  | nil =>
    cases n with
    | zero => simp [cutAtByte, byteLength_eq_zero_iff, and_comm]
    | succ n =>
      simp only [cutAtByte, reduceCtorEq, false_iff, not_and, List.nil_eq, List.append_eq_nil_iff]
      rintro ⟨rfl, -⟩
      simp [byteLength]
  | cons c cs ih =>
    have hsize := c.utf8Size_pos
    cases n with
    | zero =>
      rw [cutAtByte, Option.some.injEq, Prod.mk.injEq, byteLength_eq_zero_iff]
      constructor
      · rintro ⟨rfl, rfl⟩
        exact ⟨rfl, rfl⟩
      · rintro ⟨hcut, rfl⟩
        exact ⟨rfl, hcut⟩
    | succ n =>
      rw [cutAtByte]
      cases front with
      | nil => simp [byteLength]
      | cons d front =>
        have hlength : byteLength (d :: front) = d.utf8Size + byteLength front := rfl
        split
        · simp only [Option.map_eq_some_iff, Prod.exists, Prod.mk.injEq, List.cons.injEq,
            List.cons_append, hlength]
          constructor
          · rintro ⟨front', back', hcut, ⟨rfl, rfl⟩, rfl⟩
            obtain ⟨rfl, hfront⟩ := ih.mp hcut
            exact ⟨⟨rfl, rfl⟩, by omega⟩
          · rintro ⟨⟨rfl, rfl⟩, hfront⟩
            exact ⟨front, back, ih.mpr ⟨rfl, by omega⟩, ⟨rfl, rfl⟩, rfl⟩
        · simp only [reduceCtorEq, false_iff, List.cons_append, List.cons.injEq, hlength]
          rintro ⟨⟨rfl, -⟩, hfront⟩
          omega

/-- Of two texts that another one starts with, that with fewer bytes is the shorter one. -/
theorem prefix_of_byteLength_le {xs ys : List Char} (hxs : xs <+: text) (hys : ys <+: text)
    (h : byteLength xs ≤ byteLength ys) : xs <+: ys := by
  rcases List.prefix_or_prefix_of_prefix hxs hys with hle | ⟨more, rfl⟩
  · exact hle
  · rw [byteLength_append] at h
    obtain rfl : more = [] := byteLength_eq_zero_iff.mp (by omega)
    exact (List.append_nil ys).symm ▸ List.prefix_refl ys

theorem isBoundary_append (front : List Char) :
    IsBoundary (front ++ rest) (byteLength front + n) ↔ IsBoundary rest n := by
  constructor
  · rintro ⟨whole, back, hcut, hlength⟩
    have hprefix : front <+: whole :=
      prefix_of_byteLength_le (List.prefix_append front rest) ⟨back, hcut.symm⟩ (by omega)
    obtain ⟨more, rfl⟩ := hprefix
    rw [List.append_assoc] at hcut
    rw [byteLength_append] at hlength
    exact ⟨more, back, List.append_cancel_left hcut, by omega⟩
  · rintro ⟨more, back, rfl, rfl⟩
    exact ⟨front ++ more, back, (List.append_assoc ..).symm, byteLength_append ..⟩

/-- A needle stands in a text at a position. -/
def OccursAt (needle text : List Char) (n : Nat) : Prop :=
  ∃ front back, text = front ++ (needle ++ back) ∧ byteLength front = n

theorem OccursAt.isBoundary (h : OccursAt needle text n) :
    IsBoundary text n ∧ IsBoundary text (n + byteLength needle) := by
  obtain ⟨front, back, rfl, rfl⟩ := h
  exact ⟨⟨front, needle ++ back, rfl, rfl⟩,
    ⟨front ++ needle, back, (List.append_assoc ..).symm, byteLength_append ..⟩⟩

theorem occursAt_append (front : List Char) :
    OccursAt needle (front ++ rest) (byteLength front + n) ↔ OccursAt needle rest n := by
  constructor
  · rintro ⟨whole, back, hcut, hlength⟩
    have hprefix : front <+: whole :=
      prefix_of_byteLength_le (List.prefix_append front rest) ⟨_, hcut.symm⟩ (by omega)
    obtain ⟨more, rfl⟩ := hprefix
    rw [List.append_assoc] at hcut
    rw [byteLength_append] at hlength
    exact ⟨more, back, List.append_cancel_left hcut, by omega⟩
  · rintro ⟨more, back, rfl, rfl⟩
    exact ⟨front ++ more, back, (List.append_assoc ..).symm, byteLength_append ..⟩

theorem exists_occursAt_iff : (∃ n, OccursAt needle text n) ↔ needle <:+: text := by
  constructor
  · rintro ⟨-, front, back, rfl, -⟩
    exact ⟨front, back, List.append_assoc ..⟩
  · rintro ⟨front, back, rfl⟩
    exact ⟨_, front, back, List.append_assoc .., rfl⟩

/-- The positions at which a scan from `start` on finds a needle: the first occurrence from there
on, and then those of a scan from its end on. -/
inductive Scan (needle text : List Char) : Nat → List Nat → Prop
  | done {start : Nat} (hnone : ∀ i, start ≤ i → ¬ OccursAt needle text i) : Scan needle text start []
  | found {start i : Nat} {later : List Nat} (hstart : start ≤ i) (hat : OccursAt needle text i)
      (hfirst : ∀ j, start ≤ j → j < i → ¬ OccursAt needle text j)
      (hlater : Scan needle text (i + byteLength needle) later) : Scan needle text start (i :: later)

/-- All that a scan finds are occurrences. -/
theorem Scan.occursAt {found : List Nat} (h : Scan needle text start found) :
    ∀ i ∈ found, OccursAt needle text i := by
  induction h with
  | done => simp
  | found _ hat _ _ ih => exact List.forall_mem_cons.mpr ⟨hat, ih⟩

/-- A scan of the whole text finds something if there is something to find. -/
theorem Scan.ne_nil {found : List Nat} (h : Scan needle text 0 found) (hin : needle <:+: text) :
    found ≠ [] := by
  obtain ⟨n, hat⟩ := exists_occursAt_iff.mpr hin
  rintro rfl
  cases h with
  | done hnone => exact hnone n (Nat.zero_le n) hat

/-- A scan finds one thing only. -/
theorem Scan.unique {found found' : List Nat} (h : Scan needle text start found)
    (h' : Scan needle text start found') : found = found' := by
  induction h generalizing found' with
  | done hnone =>
    cases h' with
    | done => rfl
    | found hstart hat => exact absurd hat (hnone _ hstart)
  | @found start i later hstart hat hfirst hlater ih =>
    cases h' with
    | done hnone => exact absurd hat (hnone _ hstart)
    | @found _ j _ hstart' hat' hfirst' hlater' =>
      have hle : i ≤ j := Nat.not_lt.mp fun hlt => hfirst j hstart' hlt hat'
      have hge : j ≤ i := Nat.not_lt.mp fun hlt => hfirst' i hstart hlt hat
      obtain rfl : i = j := Nat.le_antisymm hle hge
      rw [ih hlater']

/-- The positions of the cuts, each of `width` bytes, between pieces that follow each other from
`start` on. -/
def cutPlaces (width : Nat) : Nat → List (List Char) → List Nat
  | start, piece :: next :: pieces =>
    (start + byteLength piece) ::
      cutPlaces width (start + byteLength piece + width) (next :: pieces)
  | _, _ => []

theorem splitFrom_eq_drop (needle : List Char) (skip : Nat) (cs : List Char) :
    splitFrom needle skip cs = splitText needle (cs.drop skip) := by
  induction cs generalizing skip with
  | nil => cases skip <;> rfl
  | cons c cs ih =>
    cases skip with
    | zero => rfl
    | succ skip => rw [splitFrom, ih, List.drop_succ_cons]

/-- The pieces of a text that starts with the needle. -/
theorem splitText_append (hneedle : needle ≠ []) (back : List Char) :
    splitText needle (needle ++ back) = [] :: splitText needle back := by
  obtain ⟨c, needle, rfl⟩ := List.exists_cons_of_ne_nil hneedle
  have hprefix : (c :: needle).isPrefixOf (c :: (needle ++ back)) = true :=
    List.isPrefixOf_iff_prefix.mpr ⟨back, rfl⟩
  rw [List.cons_append, splitText, splitFrom, if_pos hprefix, splitFrom_eq_drop, List.length_cons,
    Nat.add_sub_cancel, List.drop_left]

theorem splitText_cons {c : Char} (h : ¬ needle <+: c :: cs) :
    splitText needle (c :: cs) = (splitText needle cs).modifyHead (c :: ·) := by
  rw [splitText, splitFrom, if_neg (mt List.isPrefixOf_iff_prefix.mp h)]
  rfl

/-- What a scan from left to right leaves of a text: the whole text where the needle does not occur,
and else what stands before its first occurrence, and what is left of the text behind that. -/
inductive Pieces (needle : List Char) : List Char → List (List Char) → Prop
  | whole {text : List Char} (hnone : ¬ needle <:+: text) : Pieces needle text [text]
  | cut {front back : List Char} {pieces : List (List Char)}
      (hfirst : ∀ early late, front = early ++ late → late ≠ [] →
        ¬ needle <+: late ++ (needle ++ back))
      (hback : Pieces needle back pieces) : Pieces needle (front ++ (needle ++ back)) (front :: pieces)

theorem Pieces.cons {c : Char} {pieces : List (List Char)} (hc : ¬ needle <+: c :: text)
    (h : Pieces needle text pieces) :
    Pieces needle (c :: text) (pieces.modifyHead (c :: ·)) := by
  cases h with
  | whole hnone => exact .whole fun hin => (List.infix_cons_iff.mp hin).elim hc hnone
  | @cut front back pieces hfirst hback =>
    rw [List.modifyHead_cons, ← List.cons_append]
    refine .cut (fun early late hsplit hlate => ?_) hback
    cases early with
    | nil =>
      obtain rfl : c :: front = late := hsplit
      exact hc
    | cons d early => exact hfirst early late (List.cons.inj hsplit).2 hlate

/-- By induction on the length of the text, as the part behind an occurrence is shorter. -/
theorem pieces_splitText (hneedle : needle ≠ []) (text : List Char) :
    Pieces needle text (splitText needle text) := by
  induction hlength : text.length using Nat.strongRecOn generalizing text with
  | _ length ih =>
    by_cases hprefix : needle <+: text
    · obtain ⟨back, rfl⟩ := hprefix
      have hpositive := List.length_pos_iff.mpr hneedle
      rw [List.length_append] at hlength
      have hcut : Pieces needle ([] ++ (needle ++ back)) ([] :: splitText needle back) :=
        .cut (fun early late hsplit hlate => absurd (List.append_eq_nil_iff.mp hsplit.symm).2 hlate)
          (ih back.length (by omega) back rfl)
      rwa [List.nil_append, ← splitText_append hneedle] at hcut
    · cases text with
      | nil => exact .whole fun hin => hneedle (List.infix_nil.mp hin)
      | cons c cs =>
        rw [splitText_cons hprefix]
        exact (ih cs.length (by rw [← hlength]; exact Nat.lt_succ_self _) cs rfl).cons hprefix

theorem Pieces.ne_nil {pieces : List (List Char)} (h : Pieces needle text pieces) : pieces ≠ [] := by
  cases h <;> simp

/-- What stands before the first occurrence is not longer than what stands before another one. -/
theorem length_le_of_first {front back front' back' : List Char}
    (hsame : front ++ (needle ++ back) = front' ++ (needle ++ back'))
    (hfirst : ∀ early late, front = early ++ late → late ≠ [] →
      ¬ needle <+: late ++ (needle ++ back)) : front.length ≤ front'.length := by
  refine Nat.not_lt.mp fun hlonger => ?_
  obtain ⟨late, rfl⟩ : front' <+: front :=
    List.prefix_of_prefix_length_le ⟨_, hsame.symm⟩ (List.prefix_append ..) (Nat.le_of_lt hlonger)
  rw [List.append_assoc] at hsame
  refine hfirst front' late rfl ?_ ⟨back', (List.append_cancel_left hsame).symm⟩
  rintro rfl
  simp at hlonger

/-- A scan leaves the same of a text every time. -/
theorem Pieces.unique {pieces pieces' : List (List Char)} (h : Pieces needle text pieces)
    (h' : Pieces needle text pieces') : pieces = pieces' := by
  induction h generalizing pieces' with
  | @whole text hnone =>
    cases h' with
    | whole => rfl
    | @cut front back _ => exact absurd ⟨front, back, List.append_assoc ..⟩ hnone
  | @cut front back pieces hfirst hback ih =>
    generalize hsame : front ++ (needle ++ back) = text at h'
    cases h' with
    | whole hnone => exact absurd ⟨front, back, (List.append_assoc ..).trans hsame⟩ hnone
    | @cut front' back' _ hfirst' hback' =>
      have hlength : front.length = front'.length :=
        Nat.le_antisymm (length_le_of_first hsame hfirst) (length_le_of_first hsame.symm hfirst')
      obtain ⟨rfl, hrest⟩ := List.append_inj hsame hlength
      obtain rfl := List.append_cancel_left hrest
      rw [ih hback']

/-- With the needle between each two, the pieces are the text again. -/
theorem Pieces.intercalate {pieces : List (List Char)} (h : Pieces needle text pieces) :
    needle.intercalate pieces = text := by
  induction h with
  | whole => exact List.intercalate_singleton
  | cut _ hback ih => rw [List.intercalate_cons_of_ne_nil hback.ne_nil, ih, List.append_assoc]

/-- The cuts between the pieces of what stands behind `front` are what a scan finds there. -/
theorem Pieces.scan {pieces : List (List Char)} (h : Pieces needle text pieces)
    (front : List Char) :
    Scan needle (front ++ text) (byteLength front)
      (cutPlaces (byteLength needle) (byteLength front) pieces) := by
  induction h generalizing front with
  | @whole text hnone =>
    refine .done fun i hi hat => hnone ?_
    obtain ⟨n, rfl⟩ := Nat.exists_eq_add_of_le hi
    exact exists_occursAt_iff.mp ⟨n, (occursAt_append front).mp hat⟩
  | @cut piece back pieces hfirst hback ih =>
    obtain ⟨next, more, rfl⟩ := List.exists_cons_of_ne_nil hback.ne_nil
    have hlater := ih (front ++ (piece ++ needle))
    have htext : front ++ (piece ++ needle) ++ back = front ++ (piece ++ (needle ++ back)) := by
      simp only [List.append_assoc]
    rw [htext, byteLength_append, byteLength_append, ← Nat.add_assoc] at hlater
    refine .found (Nat.le_add_right ..) ?_ ?_ hlater
    · exact (occursAt_append front).mpr ⟨piece, back, rfl, rfl⟩
    · intro j hj hlt hat
      obtain ⟨n, rfl⟩ := Nat.exists_eq_add_of_le hj
      obtain ⟨early, rest, hsplit, hn⟩ := (occursAt_append front).mp hat
      -- an occurrence that begins within the piece would come before the first one
      have hearly : early <+: piece :=
        prefix_of_byteLength_le ⟨_, hsplit.symm⟩ (List.prefix_append ..) (by omega)
      obtain ⟨late, rfl⟩ := hearly
      rw [byteLength_append] at hlt
      have hlate : late ≠ [] := fun hnil => by
        rw [hnil, byteLength] at hlt
        omega
      rw [List.append_assoc] at hsplit
      exact hfirst early late rfl hlate ⟨rest, (List.append_cancel_left hsplit).symm⟩

/-- `splitText` cuts a text where a scan finds the needle. -/
theorem scan_splitText (hneedle : needle ≠ []) (text : List Char) :
    Scan needle text 0 (cutPlaces (byteLength needle) 0 (splitText needle text)) :=
  (pieces_splitText hneedle text).scan []

end ShellTutor.Text

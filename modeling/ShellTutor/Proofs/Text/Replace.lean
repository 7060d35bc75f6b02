import ShellTutor.Proofs.Text.Occurrence
import ShellTutor.Proofs.Text.Split

/-!
# Putting one text in place of another

Replacing goes through a text from left to right: an occurrence of the needle is taken as a whole,
and any other character stays. A needle whose first character does not come again in it cannot
reach across that character, so in front of it a text may be cut, and its parts replaced one by one.
-/

namespace ShellTutor.Text

variable {needle value cs back : List Char} {c d : Char}

theorem replaceAll_needle_append (hneedle : needle ≠ []) (back : List Char) :
    replaceAll needle value (needle ++ back) = value ++ replaceAll needle value back := by
  have hpieces := (pieces_splitText hneedle back).ne_nil
  rw [replaceAll, splitText_append hneedle, List.intercalate_cons_of_ne_nil hpieces,
    List.nil_append]
  rfl

theorem replaceAll_cons (hneedle : needle ≠ []) (h : ¬ needle <+: c :: cs) :
    replaceAll needle value (c :: cs) = c :: replaceAll needle value cs := by
  obtain ⟨first, rest, hpieces⟩ :=
    List.exists_cons_of_ne_nil (pieces_splitText hneedle cs).ne_nil
  rw [replaceAll, splitText_cons h, replaceAll, hpieces, List.modifyHead_cons]
  cases rest with
  | nil => rw [List.intercalate_singleton, List.intercalate_singleton]
  | cons next rest =>
    rw [List.intercalate_cons_cons, List.intercalate_cons_cons]
    rfl

/-- What holds of the empty text, and is kept by a needle in front and by a character at which no
needle starts, holds of all texts. -/
theorem replace_induction {P : List Char → Prop} (hneedle : needle ≠ []) (nil : P [])
    (found : ∀ back, P back → P (needle ++ back))
    (other : ∀ c cs, ¬ needle <+: c :: cs → P cs → P (c :: cs)) (cs : List Char) : P cs := by
  induction hlength : cs.length using Nat.strongRecOn generalizing cs with
  | _ length ih =>
    by_cases hprefix : needle <+: cs
    · obtain ⟨back, rfl⟩ := hprefix
      have hpositive := List.length_pos_iff.mpr hneedle
      rw [List.length_append] at hlength
      exact found back (ih back.length (by omega) back rfl)
    · cases cs with
      | nil => exact nil
      | cons c cs =>
        rw [List.length_cons] at hlength
        exact other c cs hprefix (ih cs.length (by omega) cs rfl)

theorem replaceAll_of_not_infix (hneedle : needle ≠ []) (h : ¬ needle <:+: cs) :
    replaceAll needle value cs = cs := by
  induction cs with
  | nil => rfl
  | cons c cs ih =>
    rw [List.infix_cons_iff, not_or] at h
    rw [replaceAll_cons hneedle h.1, ih h.2]

theorem mem_replaceAll (hneedle : needle ≠ []) (hd : d ∉ needle) :
    d ∈ cs → d ∈ replaceAll needle value cs := by
  induction cs using replace_induction hneedle with
  | nil => exact id
  | found back ih =>
    intro hmem
    rw [replaceAll_needle_append hneedle]
    exact List.mem_append_right _ (ih ((List.mem_append.mp hmem).resolve_left hd))
  | other c cs hfirst ih =>
    intro hmem
    rw [replaceAll_cons hneedle hfirst]
    exact List.mem_cons.mpr ((List.mem_cons.mp hmem).imp_right ih)

/-- A text that starts otherwise than the value starts as it did. -/
theorem head?_of_head?_replaceAll (hneedle : needle ≠ []) (hvalue : value ≠ [])
    (hd : value.head? ≠ some d) (h : (replaceAll needle value cs).head? = some d) :
    cs.head? = some d := by
  obtain ⟨first, rest, rfl⟩ := List.exists_cons_of_ne_nil hvalue
  induction cs using replace_induction hneedle with
  | nil => exact h
  | found back =>
    rw [replaceAll_needle_append hneedle] at h
    exact absurd h hd
  | other c cs hfirst =>
    rw [replaceAll_cons hneedle hfirst] at h
    exact h

section Marked

variable {word : List Char}

theorem infix_of_infix_append {front : List Char} (hfront : c ∉ front)
    (h : c :: word <:+: front ++ back) : c :: word <:+: back := by
  induction front with
  | nil => exact h
  | cons d front ih =>
    rw [List.mem_cons, not_or] at hfront
    rw [List.cons_append, List.infix_cons_iff] at h
    exact ih hfront.2 (h.resolve_left fun hfirst => hfront.1 (List.cons_prefix_cons.mp hfirst).1)

theorem replaceAll_append_of_not_mem {front : List Char} (hfront : c ∉ front) (back : List Char) :
    replaceAll (c :: word) value (front ++ back) = front ++ replaceAll (c :: word) value back := by
  induction front with
  | nil => rfl
  | cons d front ih =>
    rw [List.mem_cons, not_or] at hfront
    have hfirst : ¬ c :: word <+: d :: (front ++ back) := fun h =>
      hfront.1 (List.cons_prefix_cons.mp h).1
    rw [List.cons_append, replaceAll_cons (List.cons_ne_nil _ _) hfirst, ih hfront.2]
    rfl

/-- A needle starts with the first of two texts alone, if the second starts with its first
character. -/
theorem prefix_of_prefix_append {front : List Char} (hword : c ∉ word)
    (h : word <+: front ++ c :: back) : word <+: front := by
  rcases List.prefix_or_prefix_of_prefix h (List.prefix_append front (c :: back)) with
    hshort | ⟨more, rfl⟩
  · exact hshort
  · rw [List.prefix_append_right_inj] at h
    cases more with
    | nil => simp
    | cons d more =>
      obtain ⟨rfl, -⟩ := List.cons_prefix_cons.mp h
      exact absurd (List.mem_append_right front (List.mem_cons_self ..)) hword

theorem replaceAll_append (hword : c ∉ word) (front back : List Char) :
    replaceAll (c :: word) value (front ++ c :: back) =
      replaceAll (c :: word) value front ++ replaceAll (c :: word) value (c :: back) := by
  have hneedle : c :: word ≠ [] := List.cons_ne_nil _ _
  induction front using replace_induction hneedle with
  | nil => rfl
  | found rest ih =>
    rw [List.append_assoc, replaceAll_needle_append hneedle, ih, replaceAll_needle_append hneedle,
      List.append_assoc]
  | other d front hfirst ih =>
    have hstill : ¬ c :: word <+: d :: (front ++ c :: back) := fun h => by
      obtain ⟨rfl, hrest⟩ := List.cons_prefix_cons.mp h
      exact hfirst (List.cons_prefix_cons.mpr ⟨rfl, prefix_of_prefix_append hword hrest⟩)
    rw [List.cons_append, replaceAll_cons hneedle hstill, ih, replaceAll_cons hneedle hfirst]
    rfl

/-- A mark that starts like the needle, and is neither its beginning nor begins with it, stays
between the texts on its two sides. -/
theorem replaceAll_append_mark {mark : List Char} (hword : c ∉ word) (hmark : c ∉ mark)
    (hshort : ¬ c :: word <+: c :: mark) (hlong : ¬ c :: mark <+: c :: word)
    (front back : List Char) :
    replaceAll (c :: word) value (front ++ (c :: mark ++ back)) =
      replaceAll (c :: word) value front ++ (c :: mark ++ replaceAll (c :: word) value back) := by
  have hother : ¬ c :: word <+: c :: (mark ++ back) := fun h =>
    (List.prefix_or_prefix_of_prefix h (List.prefix_append (c :: mark) back)).elim hshort hlong
  rw [List.cons_append, replaceAll_append hword, replaceAll_cons (List.cons_ne_nil _ _) hother,
    replaceAll_append_of_not_mem hmark]
  rfl

end Marked

end ShellTutor.Text

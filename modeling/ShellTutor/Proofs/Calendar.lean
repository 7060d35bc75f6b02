import ShellTutor.Calendar

/-!
# The characters of dates

A date is written in letters, digits and a few marks. None of them has a meaning for a script, so a
date that stands in a text is never taken for more than itself.
-/

namespace ShellTutor.Calendar

/-- A text that neither starts a reference nor goes on with one in braces. -/
def Unmarked (s : String) : Prop :=
  ∀ c ∈ s.toList, c ≠ '$' ∧ c ≠ '\x7b'

instance (s : String) : Decidable (Unmarked s) :=
  List.decidableBAll (fun c => c ≠ '$' ∧ c ≠ '\x7b') s.toList

theorem unmarked_toString (n : Nat) : Unmarked (toString n) := by
  intro c hc
  have hprinted : (toString n).toList = Nat.toDigits 10 n := Nat.toList_repr
  rw [hprinted] at hc
  have hdigit := Nat.isDigit_of_mem_toDigits (by decide) (by decide) hc
  constructor <;> rintro rfl <;> cases hdigit

theorem unmarked_append_iff {s t : String} : Unmarked (s ++ t) ↔ Unmarked s ∧ Unmarked t := by
  rw [Unmarked, String.toList_append]
  exact List.forall_mem_append

theorem Unmarked.append {s t : String} (hs : Unmarked s) (ht : Unmarked t) : Unmarked (s ++ t) :=
  unmarked_append_iff.mpr ⟨hs, ht⟩

theorem unmarked_replicate {c : Char} (hc : c ≠ '$' ∧ c ≠ '\x7b') (n : Nat) :
    Unmarked (String.ofList (List.replicate n c)) := by
  intro d hd
  rw [String.toList_ofList] at hd
  exact List.eq_of_mem_replicate hd ▸ hc

theorem unmarked_zeroPadded (width n : Nat) : Unmarked (Text.zeroPadded width n) :=
  (unmarked_replicate (by decide) _).append (unmarked_toString n)

theorem unmarked_alignRight {s : String} (hs : Unmarked s) (width : Nat) :
    Unmarked (Text.alignRight width s) :=
  (unmarked_replicate (by decide) _).append hs

theorem unmarked_getD {names : List String} (h : ∀ name ∈ names, Unmarked name) (n : Nat) :
    Unmarked (names.getD n "") := by
  rw [List.getD_eq_getElem?_getD]
  cases hname : names[n]? with
  | none => exact fun c hc => absurd hc (by simp)
  | some name => exact h name (List.mem_of_getElem? hname)

theorem unmarked_yearText (year : Int) : Unmarked (yearText year) := by
  have hdigits := unmarked_zeroPadded 4 year.natAbs
  rw [yearText]
  split
  · exact Unmarked.append (by decide) hdigits
  · split
    · exact Unmarked.append (by decide) hdigits
    · exact hdigits

theorem unmarked_fullText (t : Timestamp) : Unmarked t.fullText := by
  have hweekday : Unmarked (momentOf t).weekdayName := unmarked_getD (by decide) _
  have hmonth : Unmarked (momentOf t).monthName := unmarked_getD (by decide) _
  have hday : Unmarked (Text.alignRight 2 (toString (momentOf t).day)) :=
    unmarked_alignRight (unmarked_toString _) 2
  have hclock : Unmarked (momentOf t).clockText :=
    ((unmarked_zeroPadded 2 _).append (by decide)).append (unmarked_zeroPadded 2 _)
  rw [Timestamp.fullText, Moment.fullText]
  simp only [unmarked_append_iff]
  exact ⟨⟨⟨⟨⟨⟨⟨⟨⟨⟨hweekday, by decide⟩, hmonth⟩, by decide⟩, hday⟩, by decide⟩, hclock⟩, by decide⟩,
    unmarked_zeroPadded 2 _⟩, by decide⟩, unmarked_yearText _⟩

theorem fullText_ne_nil (t : Timestamp) : t.fullText.toList ≠ [] := by
  rw [Timestamp.fullText, Moment.fullText]
  simp

end ShellTutor.Calendar

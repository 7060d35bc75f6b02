import ShellTutor.Proofs.Text.Occurrence
import ShellTutor.Text.Lowercase

/-!
# Lower case and lengths

Most characters have a lower-case form of as many bytes as they have themselves, and a text of such
characters has its boundaries at the same positions as its lower-case form. A few shrink, such as
the capital sharp s, and a few grow, such as the capital dotted I.

What stands before a text has an effect on its lower-case form only if it holds a letter with case.
-/

namespace ShellTutor.Text

/-- The lower-case form of a character has as many bytes as the character. -/
def KeepsSize (c : Char) : Prop :=
  byteLength (lowerChar c) = c.utf8Size

instance (c : Char) : Decidable (KeepsSize c) :=
  inferInstanceAs (Decidable (byteLength (lowerChar c) = c.utf8Size))

variable {before cs xs ys : List Char} {n : Nat}

/-- The only character that becomes two does not keep its size. -/
theorem exists_lowerChar_eq {c : Char} (h : KeepsSize c) :
    ∃ d, lowerChar c = [d] ∧ d.utf8Size = c.utf8Size := by
  have hsingle : ∃ d, lowerChar c = [d] := by
    unfold lowerChar
    split
    · exact ⟨_, rfl⟩
    · split
      · rename_i hdotted
        subst hdotted
        exact absurd h (by decide +kernel)
      · split
        · exact ⟨_, rfl⟩
        · exact ⟨_, rfl⟩
  obtain ⟨d, hd⟩ := hsingle
  refine ⟨d, hd, ?_⟩
  rw [KeepsSize, hd, byteLength, byteLength, Nat.add_zero] at h
  exact h

theorem utf8Size_lowerSigma (before cs : List Char) : (lowerSigma before cs).utf8Size = 2 := by
  unfold lowerSigma
  split <;> decide

theorem map_utf8Size_lowerAfter (h : ∀ c ∈ cs, KeepsSize c) :
    (lowerAfter before cs).map Char.utf8Size = cs.map Char.utf8Size := by
  induction cs generalizing before with
  | nil => rfl
  | cons c cs ih =>
    obtain ⟨hc, hcs⟩ := List.forall_mem_cons.mp h
    rw [lowerAfter, List.map_append, ih hcs, List.map_cons]
    split
    · rename_i hsigma
      rw [hsigma, List.map_singleton, utf8Size_lowerSigma]
      rfl
    · obtain ⟨d, hd, hsize⟩ := exists_lowerChar_eq hc
      rw [hd, List.map_singleton, hsize]
      rfl

theorem byteLength_of_map_utf8Size (hsizes : xs.map Char.utf8Size = ys.map Char.utf8Size) :
    byteLength xs = byteLength ys := by
  induction xs generalizing ys with
  | nil => rw [List.map_eq_nil_iff.mp hsizes.symm]
  | cons x xs ih =>
    obtain ⟨y, ys, rfl, hfirst, hrest⟩ := List.map_eq_cons_iff.mp hsizes.symm
    rw [byteLength, byteLength, ih hrest.symm, hfirst]

/-- Texts whose characters have the same sizes one by one have the same boundaries. -/
theorem IsBoundary.of_map_utf8Size (hsizes : xs.map Char.utf8Size = ys.map Char.utf8Size)
    (h : IsBoundary xs n) : IsBoundary ys n := by
  obtain ⟨front, back, rfl, rfl⟩ := h
  rw [List.map_append, eq_comm, List.map_eq_append_iff] at hsizes
  obtain ⟨front', back', rfl, hfront, -⟩ := hsizes
  exact ⟨front', back', rfl, byteLength_of_map_utf8Size hfront⟩

theorem lowerChar_ne_nil (c : Char) : lowerChar c ≠ [] := by
  unfold lowerChar
  split
  · simp
  · split
    · simp
    · split <;> simp

theorem lowerChars_eq_nil_iff : lowerChars cs = [] ↔ cs = [] := by
  cases cs with
  | nil => simp [lowerChars, lowerAfter]
  | cons c cs =>
    rw [lowerChars, lowerAfter]
    split <;> simp [lowerChar_ne_nil]

/-- A character that has no case, and so takes no part in that of others. -/
def IsCaseless (c : Char) : Prop :=
  inRanges casedLetters c.toNat = false

instance (c : Char) : Decidable (IsCaseless c) :=
  inferInstanceAs (Decidable (inRanges casedLetters c.toNat = false))

theorem startsCased_append_caseless (h : ∀ c ∈ before, IsCaseless c) (xs : List Char) :
    startsCased (xs ++ before) = startsCased xs := by
  have hbefore : startsCased before = false := by
    rw [startsCased]
    split
    · rfl
    · rename_i c rest hrest
      exact h c (List.dropWhile_subset _ (hrest ▸ List.mem_cons_self ..))
  induction xs with
  | nil => exact hbefore
  | cons x xs ih =>
    rw [startsCased, startsCased] at ih ⊢
    rw [List.cons_append, List.dropWhile_cons, List.dropWhile_cons]
    by_cases hx : inRanges caseIgnorable x.toNat = true
    · rw [if_pos hx, if_pos hx]
      exact ih
    · rw [if_neg hx, if_neg hx]

/-- Characters without case in front of all others change nothing. -/
theorem lowerAfter_append_caseless (h : ∀ c ∈ before, IsCaseless c) (xs cs : List Char) :
    lowerAfter (xs ++ before) cs = lowerAfter xs cs := by
  induction cs generalizing xs with
  | nil => rfl
  | cons c cs ih =>
    have hrest := ih (c :: xs)
    rw [List.cons_append] at hrest
    rw [lowerAfter, lowerAfter, lowerSigma, lowerSigma, startsCased_append_caseless h, hrest]

theorem lowerAfter_suffix (front before cs : List Char) :
    lowerAfter (front.reverse ++ before) cs <:+ lowerAfter before (front ++ cs) := by
  induction front generalizing before with
  | nil => exact List.suffix_refl _
  | cons c front ih =>
    rw [List.reverse_cons, List.append_assoc, List.singleton_append, List.cons_append, lowerAfter]
    exact (ih (c :: before)).trans (List.suffix_append ..)

/-- The lower-case form of a text goes on to be found behind characters without case. -/
theorem lowerChars_suffix (hxs : ∀ c ∈ xs, IsCaseless c) (cs : List Char) :
    lowerChars cs <:+ lowerChars (xs ++ cs) := by
  have hsuffix := lowerAfter_suffix xs [] cs
  have hreverse : ∀ c ∈ xs.reverse, IsCaseless c := by simpa using hxs
  rw [List.append_nil, ← List.nil_append xs.reverse, lowerAfter_append_caseless hreverse] at hsuffix
  exact hsuffix

end ShellTutor.Text

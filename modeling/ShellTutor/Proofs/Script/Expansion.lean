import ShellTutor.Command.Script
import ShellTutor.Proofs.Text.Replace

/-!
# Putting values in for references

Values are put in from left to right, and what was put in is not looked at again. So a text is
expanded part by part, as long as no reference begins in one part and ends in the next. This is what
a brace that is opened and not closed would do, or a name that goes on behind the cut.
-/

namespace ShellTutor.Script

variable {value : String → String} {name front cs back : List Char} {c : Char}

/-- The characters of a name: at least one. -/
structure IsName (name : List Char) : Prop where
  ne_nil : name ≠ []
  chars : ∀ c ∈ name, isNameChar c = true

instance (name : List Char) : Decidable (IsName name) :=
  decidable_of_iff (name ≠ [] ∧ name.all isNameChar = true)
    ⟨fun h => ⟨h.1, List.all_eq_true.mp h.2⟩, fun h => ⟨h.ne_nil, List.all_eq_true.mpr h.chars⟩⟩

theorem IsName.not_mem (h : IsName name) (hc : isNameChar c = false) : c ∉ name := fun hmem => by
  rw [h.chars c hmem] at hc
  cases hc

/-- A text in which each brace that is opened behind a `$` is followed by one that closes it. -/
def Closed : List Char → Prop
  | [] => True
  | c :: cs => (c = '$' → cs.head? = some '\x7b' → '\x7d' ∈ cs) ∧ Closed cs

instance decidableClosed : (cs : List Char) → Decidable (Closed cs)
  | [] => isTrue trivial
  | _ :: cs =>
    have := decidableClosed cs
    inferInstanceAs (Decidable (_ ∧ _))

/-- Whether a `$` in front of a text can begin a reference there, or in what follows the text. -/
def canRefer : List Char → Bool
  | [] => true
  | c :: _ => isNameChar c || c == '\x7b'

/-- A text in which no reference begins, whatever follows it. -/
def Inert : List Char → Prop
  | [] => True
  | c :: cs => (c = '$' → canRefer cs = false) ∧ Inert cs

instance decidableInert : (cs : List Char) → Decidable (Inert cs)
  | [] => isTrue trivial
  | _ :: cs =>
    have := decidableInert cs
    inferInstanceAs (Decidable (_ ∧ _))

theorem inert_of_not_mem (h : '$' ∉ cs) : Inert cs := by
  induction cs with
  | nil => exact trivial
  | cons c cs ih =>
    rw [List.mem_cons, not_or] at h
    exact ⟨fun hc => absurd hc.symm h.1, ih h.2⟩

theorem Closed.of_append (h : Closed (front ++ back)) : Closed back := by
  induction front with
  | nil => exact h
  | cons c front ih => exact ih h.2

theorem Closed.append_of_inert (hfront : Inert front) (h : Closed back) :
    Closed (front ++ back) := by
  induction front with
  | nil => exact h
  | cons c front ih =>
    refine ⟨fun hc hopen => ?_, ih hfront.2⟩
    have hnext := hfront.1 hc
    cases front with
    | nil => cases hnext
    | cons d front =>
      rw [Option.some.inj hopen] at hnext
      cases hnext

theorem Closed.replaceAll {needle put : List Char} (hneedle : needle ≠ [])
    (hbrace : '\x7d' ∉ needle) (hput : put ≠ []) (hstart : put.head? ≠ some '\x7b')
    (hinert : Inert put) : Closed cs → Closed (Text.replaceAll needle put cs) := by
  induction cs using Text.replace_induction hneedle with
  | nil => exact id
  | found back ih =>
    intro h
    rw [Text.replaceAll_needle_append hneedle]
    exact Closed.append_of_inert hinert (ih h.of_append)
  | other c cs hfirst ih =>
    intro h
    rw [Text.replaceAll_cons hneedle hfirst]
    refine ⟨fun hc hopen => ?_, ih h.2⟩
    have hbefore := Text.head?_of_head?_replaceAll hneedle hput hstart hopen
    exact Text.mem_replaceAll hneedle hbrace (h.1 hc hbefore)

theorem reference_braced (hname : '\x7d' ∉ name) (back : List Char) :
    reference ('\x7b' :: (name ++ '\x7d' :: back)) = (name, back) := by
  rw [reference, Text.splitOnce_append hname, Option.getD_some]

theorem reference_of_head? (h : cs.head? ≠ some '\x7b') :
    reference cs = (cs.takeWhile isNameChar, cs.dropWhile isNameChar) := by
  unfold reference
  split
  · exact absurd rfl h
  · rfl

theorem reference_bare (hname : IsName name) (hback : ∀ c ∈ back.head?, isNameChar c = false) :
    reference (name ++ back) = (name, back) := by
  have hopen : (name ++ back).head? ≠ some '\x7b' := by
    obtain ⟨c, name, rfl⟩ := List.exists_cons_of_ne_nil hname.ne_nil
    intro hc
    have hchar := hname.chars c (List.mem_cons_self ..)
    rw [Option.some.inj hc] at hchar
    exact absurd hchar (by decide)
  rw [reference_of_head? hopen, Text.takeWhile_append_of_head? hback,
    Text.dropWhile_append_of_head? hback, List.takeWhile_eq_self_iff.mpr hname.chars,
    List.dropWhile_eq_nil_iff.mpr hname.chars, List.nil_append]

/-- What is left after a reference ends the text. -/
theorem reference_suffix (cs : List Char) : (reference cs).2 <:+ cs := by
  by_cases hopen : cs.head? = some '\x7b'
  · obtain ⟨rest, rfl⟩ := List.head?_eq_some_iff.mp hopen
    by_cases hclose : '\x7d' ∈ rest
    · obtain ⟨name, after, rfl, hname⟩ := List.eq_append_cons_of_mem hclose
      rw [reference_braced hname]
      exact ⟨'\x7b' :: (name ++ ['\x7d']), by simp⟩
    · rw [reference, Text.splitOnce_eq_none_iff.mpr hclose]
      exact List.dropWhile_suffix _
  · rw [reference_of_head? hopen]
    exact List.dropWhile_suffix _

/-- A reference ends in front of a text that does not go on with it. -/
theorem reference_append (hclosed : cs.head? = some '\x7b' → '\x7d' ∈ cs)
    (hback : ∀ c ∈ back.head?, isNameChar c = false ∧ c ≠ '\x7b') :
    reference (cs ++ back) = ((reference cs).1, (reference cs).2 ++ back) := by
  by_cases hopen : cs.head? = some '\x7b'
  · obtain ⟨rest, rfl⟩ := List.head?_eq_some_iff.mp hopen
    have hclose : '\x7d' ∈ rest := (List.mem_cons.mp (hclosed hopen)).resolve_left (by decide)
    obtain ⟨name, after, rfl, hname⟩ := List.eq_append_cons_of_mem hclose
    rw [reference_braced hname, List.cons_append, List.append_assoc, List.cons_append,
      reference_braced hname]
  · have hstill : (cs ++ back).head? ≠ some '\x7b' := by
      cases cs with
      | nil => exact fun hc => (hback _ hc).2 rfl
      | cons c cs => exact hopen
    have hname : ∀ c ∈ back.head?, isNameChar c = false := fun c hc => (hback c hc).1
    rw [reference_of_head? hstill, Text.takeWhile_append_of_head? hname,
      Text.dropWhile_append_of_head? hname, reference_of_head? hopen]

theorem substitute_cons (hc : c ≠ '$') (cs : List Char) :
    substitute value (c :: cs) = c :: substitute value cs := by
  rw [substitute, if_neg hc]

theorem substitute_dollar (cs : List Char) :
    substitute value ('$' :: cs) =
      (if (reference cs).1.isEmpty then ['$']
        else (value (String.ofList (reference cs).1)).toList) ++
      substitute value (reference cs).2 := by
  rw [substitute, if_pos rfl]

/-- Where no reference begins, a text stays as it is. -/
theorem substitute_append_of_inert (hfront : Inert front) (back : List Char) :
    substitute value (front ++ back) = front ++ substitute value back := by
  induction front with
  | nil => rfl
  | cons c front ih =>
    have hrest := ih hfront.2
    by_cases hc : c = '$'
    · subst hc
      have hnext := hfront.1 rfl
      cases front with
      | nil => cases hnext
      | cons d front =>
        rw [canRefer, Bool.or_eq_false_iff, beq_eq_false_iff_ne] at hnext
        have hopen : (d :: front ++ back).head? ≠ some '\x7b' := fun hd =>
          hnext.2 (Option.some.inj hd)
        rw [List.cons_append, substitute_dollar, reference_of_head? hopen, List.cons_append,
          List.takeWhile_cons_of_neg (by simp [hnext.1]),
          List.dropWhile_cons_of_neg (by simp [hnext.1])]
        exact congrArg ('$' :: ·) hrest
    · rw [List.cons_append, substitute_cons hc, hrest]
      rfl

theorem substitute_of_inert (hcs : Inert cs) : substitute value cs = cs := by
  have hall : substitute value (cs ++ []) = cs ++ substitute value [] :=
    substitute_append_of_inert hcs []
  rwa [List.append_nil, substitute, List.append_nil] at hall

section Named

variable {name : String} (hname : IsName name.toList)
include hname

theorem substitute_bare (hback : ∀ c ∈ back.head?, isNameChar c = false) :
    substitute value ('$' :: (name.toList ++ back)) =
      (value name).toList ++ substitute value back := by
  rw [substitute_dollar, reference_bare hname hback, if_neg (by simpa using hname.ne_nil),
    String.ofList_toList]

theorem substitute_braced (back : List Char) :
    substitute value ('$' :: '\x7b' :: (name.toList ++ '\x7d' :: back)) =
      (value name).toList ++ substitute value back := by
  rw [substitute_dollar, reference_braced (hname.not_mem (by decide)),
    if_neg (by simpa using hname.ne_nil), String.ofList_toList]

end Named

/-- Two texts are expanded one by one where no reference reaches from the first into the second. -/
theorem substitute_append (hclosed : Closed front)
    (hback : ∀ c ∈ back.head?, isNameChar c = false ∧ c ≠ '\x7b') :
    substitute value (front ++ back) = substitute value front ++ substitute value back := by
  -- the text in front shrinks by a reference at a time, and what is left of it ends it
  induction hlength : front.length using Nat.strongRecOn generalizing front with
  | _ length ih =>
    cases front with
    | nil => rw [substitute]; rfl
    | cons c front =>
      rw [List.length_cons] at hlength
      by_cases hc : c = '$'
      · subst hc
        obtain ⟨consumed, hsuffix⟩ := reference_suffix front
        have hshorter := length_reference_le front
        have hrest : Closed (reference front).2 := Closed.of_append (hsuffix.symm ▸ hclosed.2)
        rw [List.cons_append, substitute_dollar, substitute_dollar,
          reference_append (hclosed.1 rfl) hback, ih _ (by omega) hrest rfl, List.append_assoc]
      · rw [List.cons_append, substitute_cons hc, substitute_cons hc,
          ih front.length (by omega) hclosed.2 rfl]
        rfl

end ShellTutor.Script

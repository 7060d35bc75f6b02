import ShellTutor.Permission

/-!
# Octal modes

An octal mode is three digits, one for each class, and the bits of a digit are the permissions of
its class. Reading accepts these texts and no others, and what is written for permissions is read
as those permissions.
-/

namespace ShellTutor

open Number (digitValue)

/-- Three octal digits. -/
def Permissions.IsOctal (mode : String) : Prop :=
  mode.toList.length = 3 ∧ ∀ c ∈ mode.toList, '0' ≤ c ∧ c ≤ '7'

/-- The permissions whose bits are set in a number: four stands for reading, two for writing, one
for executing. -/
def Access.ofBits (n : Nat) : Access :=
  ⟨n.testBit 2, n.testBit 1, n.testBit 0⟩

/-- What three octal digits mean. -/
inductive Permissions.Written : List Char → Permissions → Prop
  | digits {a b c : Char} (h : ∀ d ∈ [a, b, c], '0' ≤ d ∧ d ≤ '7') :
      Written [a, b, c]
        ⟨.ofBits (digitValue a), .ofBits (digitValue b), .ofBits (digitValue c)⟩

namespace Access

theorem ofDigit?_eq_some_iff {c : Char} {a : Access} :
    ofDigit? c = some a ↔ ('0' ≤ c ∧ c ≤ '7') ∧ a = ofBits (digitValue c) := by
  have hbits : ofBits (digitValue c) =
      ⟨digitValue c / 4 % 2 == 1, digitValue c / 2 % 2 == 1, digitValue c % 2 == 1⟩ := by
    rw [ofBits, Access.mk.injEq]
    simp only [Nat.testBit_eq_decide_div_mod_eq]
    exact ⟨rfl, rfl, congrArg (· % 2 == 1) (Nat.div_one _)⟩
  rw [ofDigit?, hbits]
  split
  · rename_i hdigit
    simp [hdigit, eq_comm]
  · rename_i hother
    simp [hother]

/-- Digits are read one by one. -/
theorem mapM_ofDigit?_eq_some_iff {digits : List Char} {classes : List Access} :
    digits.mapM ofDigit? = some classes ↔
      (∀ c ∈ digits, '0' ≤ c ∧ c ≤ '7') ∧ classes = digits.map fun c => ofBits (digitValue c) := by
  induction digits generalizing classes with
  | nil => simp [eq_comm]
  | cons c rest ih =>
    simp only [List.mapM_cons, Option.bind_eq_bind, Option.bind_eq_some_iff, Option.pure_def,
      Option.some.injEq, ofDigit?_eq_some_iff, ih, List.forall_mem_cons, List.map_cons]
    constructor
    · rintro ⟨a, ⟨hc, rfl⟩, others, ⟨hrest, rfl⟩, rfl⟩
      exact ⟨⟨hc, hrest⟩, rfl⟩
    · rintro ⟨⟨hc, hrest⟩, rfl⟩
      exact ⟨_, ⟨hc, rfl⟩, _, ⟨hrest, rfl⟩, rfl⟩

theorem toList_digit (a : Access) : (toString a.digit).toList = [Nat.digitChar a.digit] := by
  rcases a with ⟨_ | _, _ | _, _ | _⟩ <;> decide +kernel

/-- The digit of a class is octal, and its bits are the permissions of the class. -/
theorem ofBits_digitChar (a : Access) :
    ('0' ≤ Nat.digitChar a.digit ∧ Nat.digitChar a.digit ≤ '7') ∧
      ofBits (digitValue (Nat.digitChar a.digit)) = a := by
  rcases a with ⟨_ | _, _ | _, _ | _⟩ <;> decide

end Access

namespace Permissions

theorem ofOctal_eq_ok_iff {mode : String} {p : Permissions} :
    ofOctal mode = .ok p ↔ Written mode.toList p := by
  unfold ofOctal
  generalize mode.toList = digits
  constructor
  · intro h
    split at h
    · rename_i owner group other hread
      cases h
      obtain ⟨hdigits, hclasses⟩ := Access.mapM_ofDigit?_eq_some_iff.mp hread
      match digits, hdigits, hclasses with
      | [a, b, c], hdigits, hclasses =>
        cases hclasses
        exact .digits hdigits
    · cases h
  · rintro ⟨hdigits⟩
    rw [Access.mapM_ofDigit?_eq_some_iff.mpr ⟨hdigits, rfl⟩]
    rfl

/-- A refusal quotes the mode. -/
theorem ofOctal_eq_error_iff {mode : String} {e : ShellError} :
    ofOctal mode = .error e ↔ (∀ p, ¬ Written mode.toList p) ∧ e = .invalidMode mode := by
  simp only [← ofOctal_eq_ok_iff]
  unfold ofOctal
  split <;> simp [eq_comm]

theorem exists_ofOctal_iff {mode : String} :
    (∃ permissions, ofOctal mode = .ok permissions) ↔ IsOctal mode := by
  simp only [ofOctal_eq_ok_iff, IsOctal]
  generalize mode.toList = digits
  constructor
  · rintro ⟨permissions, ⟨hdigits⟩⟩
    exact ⟨rfl, hdigits⟩
  · rintro ⟨hlength, hdigits⟩
    match digits, hlength, hdigits with
    | [a, b, c], _, hdigits => exact ⟨_, .digits hdigits⟩

theorem written_octal (p : Permissions) : Written p.octal.toList p := by
  obtain ⟨owner, group, other⟩ := p
  obtain ⟨howner, hreadOwner⟩ := owner.ofBits_digitChar
  obtain ⟨hgroup, hreadGroup⟩ := group.ofBits_digitChar
  obtain ⟨hother, hreadOther⟩ := other.ofBits_digitChar
  have hdigits : ∀ d ∈ [Nat.digitChar owner.digit, Nat.digitChar group.digit,
      Nat.digitChar other.digit], '0' ≤ d ∧ d ≤ '7' := by
    simp [howner, hgroup, hother]
  have hwritten := Written.digits hdigits
  rw [hreadOwner, hreadGroup, hreadOther] at hwritten
  rw [octal, String.toList_append, String.toList_append, Access.toList_digit,
    Access.toList_digit, Access.toList_digit]
  exact hwritten

end Permissions

end ShellTutor

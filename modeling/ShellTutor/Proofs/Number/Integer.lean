import Mathlib.Algebra.Ring.Nat
import Mathlib.Data.List.Induction
import Mathlib.Data.List.TakeWhile
import ShellTutor.Number.Binary64

/-!
# Integers in double precision

A double has 53 significant bits, and fifteen decimal digits need no more than 50. So an integer of
that length is read without rounding, and such numbers are in the order of their integers. Longer
ones may be rounded to a common neighbour.
-/

namespace ShellTutor.Number

/-- The integer that one to fifteen digits stand for. -/
def shortNatural? (cs : List Char) : Option Int :=
  if cs ≠ [] ∧ cs.length ≤ 15 ∧ cs.all isDigit then some (ofDigits cs) else none

/-- The integer that one to fifteen digits stand for, with or without a sign in front. -/
def shortInteger? : List Char → Option Int
  | '-' :: cs => (shortNatural? cs).map Neg.neg
  | '+' :: cs => shortNatural? cs
  | cs => shortNatural? cs

/-- How many units make a one. -/
def unitsOfOne : Nat := 1 <<< 1074

/-- A whole number in double precision. -/
def Binary64.ofInt (k : Int) : Binary64 :=
  .finite (k * unitsOfOne)

theorem shiftLeft_eq_mul (n shift : Nat) : n <<< shift = n * 1 <<< shift := by
  rw [Nat.shiftLeft_eq, Nat.one_shiftLeft]

/-- Whole numbers are in the order of the integers. -/
theorem Binary64.lt_ofInt (m n : Int) : (ofInt m).lt (ofInt n) = decide (m < n) := by
  have hpos : (0 : Int) < unitsOfOne := by
    rw [unitsOfOne, Nat.one_shiftLeft]
    exact Int.natCast_pos.mpr (Nat.two_pow_pos 1074)
  exact decide_eq_decide.mpr (Int.mul_lt_mul_right hpos)

theorem isDigit_iff {c : Char} : isDigit c = true ↔ '0' ≤ c ∧ c ≤ '9' := by
  rw [isDigit, Bool.and_eq_true, decide_eq_true_eq, decide_eq_true_eq]

theorem toNat_le_of_isDigit {c : Char} (h : isDigit c = true) : c.toNat ≤ 57 :=
  UInt32.le_iff_toNat_le.mp (isDigit_iff.mp h).2

theorem digitValue_lt {c : Char} (h : isDigit c = true) : digitValue c < 10 := by
  have hhigh := toNat_le_of_isDigit h
  rw [digitValue]
  omega

/-- A digit has no upper case. -/
theorem toLower_of_isDigit {c : Char} (h : isDigit c = true) : c.toLower = c := by
  have hhigh := toNat_le_of_isDigit h
  refine dif_neg fun hupper => ?_
  have hlow : 65 ≤ c.toNat := UInt32.le_iff_toNat_le.mp hupper.1
  omega

theorem ofDigits_concat (cs : List Char) (c : Char) :
    ofDigits (cs ++ [c]) = 10 * ofDigits cs + digitValue c := by
  rw [ofDigits, List.foldl_append]
  rfl

theorem ofDigits_lt {cs : List Char} (h : ∀ c ∈ cs, isDigit c = true) :
    ofDigits cs < 10 ^ cs.length := by
  induction cs using List.reverseRecOn with
  | nil => exact Nat.one_pos
  | append_singleton cs c ih =>
    have hfront := ih fun d hd => h d (List.mem_append_left _ hd)
    have hlast := digitValue_lt (h c (by simp))
    rw [ofDigits_concat, List.length_append, List.length_singleton, Nat.pow_succ]
    omega

theorem ofDigits_dropWhile_zero (cs : List Char) :
    ofDigits (cs.dropWhile (· == '0')) = ofDigits cs := by
  induction cs with
  | nil => rfl
  | cons c cs ih =>
    rw [List.dropWhile_cons]
    split
    · rename_i hzero
      obtain rfl : c = '0' := eq_of_beq hzero
      rw [ih]
      rfl
    · rfl

theorem roundHalfEven_of_dvd {num den : Nat} (hden : 0 < den) (h : den ∣ num) :
    roundHalfEven num den = num / den := by
  rw [roundHalfEven, Nat.mod_eq_zero_of_dvd h]
  exact if_pos hden

/-- A multiple of the distance between the doubles of its size is one of them. -/
theorem roundToUnits_of_dvd {num : Nat} (h : 2 ^ (num.log2 + 1 - 53) ∣ num) :
    roundToUnits num 1 = num := by
  rw [roundToUnits, Nat.div_one, Nat.one_shiftLeft, roundHalfEven_of_dvd (Nat.two_pow_pos _) h,
    Nat.shiftLeft_eq, Nat.div_mul_cancel h]

/-- A number of at most 53 bits is not rounded. -/
theorem roundToUnits_shiftLeft {n : Nat} (h : n < 2 ^ 53) (shift : Nat) :
    roundToUnits (n <<< shift) 1 = n <<< shift := by
  apply roundToUnits_of_dvd
  rw [Nat.shiftLeft_eq]
  by_cases hzero : n = 0
  · rw [hzero, Nat.zero_mul]
    exact Nat.dvd_zero _
  · have hne : n * 2 ^ shift ≠ 0 := Nat.mul_ne_zero hzero (Nat.ne_of_gt (Nat.two_pow_pos shift))
    have hsize : n * 2 ^ shift < 2 ^ (53 + shift) := by
      rw [Nat.pow_add]
      exact Nat.mul_lt_mul_of_pos_right h (Nat.two_pow_pos shift)
    have hlog := (Nat.log2_lt hne).mpr hsize
    have hfine : 2 ^ ((n * 2 ^ shift).log2 + 1 - 53) ∣ 2 ^ shift :=
      Nat.pow_dvd_pow 2 (by omega)
    exact Nat.dvd_mul_left_of_dvd hfine n

theorem shiftLeft_lt {n : Nat} (h : n < 2 ^ 53) {bits : Nat} (hbits : 53 ≤ bits) (shift : Nat) :
    n <<< shift < 1 <<< (bits + shift) := by
  rw [Nat.shiftLeft_eq, Nat.one_shiftLeft, Nat.pow_add]
  have hroom : n < 2 ^ bits := Nat.lt_of_lt_of_le h (Nat.pow_le_pow_right (by decide) hbits)
  exact Nat.mul_lt_mul_of_pos_right hroom (Nat.two_pow_pos shift)

/-- Fifteen digits or fewer are read as they are written. -/
theorem units?_of_digits {digits : List Char} (hlength : digits.length ≤ 15)
    (hdigits : ∀ c ∈ digits, isDigit c = true) (negative : Bool) :
    Decimal.units? ⟨negative, digits, 0⟩ = some (ofDigits digits * unitsOfOne) := by
  generalize hshort : digits.dropWhile (· == '0') = short
  have hvalue : ofDigits short = ofDigits digits := by
    rw [← hshort, ofDigits_dropWhile_zero]
  have hshorter : short.length ≤ 15 := by
    rw [← hshort]
    exact Nat.le_trans (List.dropWhile_sublist _).length_le hlength
  have hbits : ofDigits digits < 2 ^ 53 :=
    calc ofDigits digits < 10 ^ digits.length := ofDigits_lt hdigits
      _ ≤ 10 ^ 15 := Nat.pow_le_pow_right (by decide) hlength
      _ < 2 ^ 53 := by decide
  have hroom : ofDigits digits <<< 1074 < overflowUnits :=
    have hexponents : 53 ≤ 1024 := by decide
    shiftLeft_lt hbits hexponents 1074
  rw [unitsOfOne, ← shiftLeft_eq_mul, Decimal.units?, hshort]
  by_cases hnil : short = []
  · have hzero : ofDigits digits = 0 := by
      rw [← hvalue, hnil]
      rfl
    simp [hnil, hzero]
  · have hlow : ¬ (short.length : Int) < -400 := by omega
    have hhigh : ¬ 400 < (short.length : Int) := by omega
    simp [hnil, hlow, hhigh, hvalue, roundToUnits_shiftLeft hbits, hroom]

theorem nearest_of_digits {digits : List Char} (hlength : digits.length ≤ 15)
    (hdigits : ∀ c ∈ digits, isDigit c = true) (negative : Bool) :
    Decimal.nearest ⟨negative, digits, 0⟩ =
      .ofInt (if negative then -(ofDigits digits : Int) else ofDigits digits) := by
  rw [Decimal.nearest, units?_of_digits hlength hdigits, Binary64.ofInt]
  cases negative with
  | false => simp
  | true => simp only [↓reduceIte, Int.neg_mul, Int.natCast_mul]

theorem shortInteger?_eq (cs : List Char) :
    shortInteger? cs =
      (shortNatural? (takeSign cs).2).map fun n => if (takeSign cs).1 then -n else n := by
  unfold shortInteger? takeSign
  split
  · rfl
  · simp
  · simp

theorem decimal?_of_digits {digits : List Char} (hne : digits ≠ [])
    (hdigits : ∀ c ∈ digits, isDigit c = true) (negative : Bool) :
    decimal? negative digits = some ⟨negative, digits, 0⟩ := by
  have hwhole : digits.takeWhile isDigit = digits := List.takeWhile_eq_self_iff.mpr hdigits
  have hrest : digits.dropWhile isDigit = [] := List.dropWhile_eq_nil_iff.mpr hdigits
  simp [decimal?, hwhole, hrest, hne, exponent?]

/-- A number that is spelled out starts with a letter. -/
theorem ofList_toLower_ne {digits : List Char} (hne : digits ≠ [])
    (hdigits : ∀ c ∈ digits, isDigit c = true) {letter : Char} (hletter : isDigit letter = false)
    (cs : List Char) : String.ofList (digits.map Char.toLower) ≠ String.ofList (letter :: cs) := by
  obtain ⟨first, rest, rfl⟩ := List.exists_cons_of_ne_nil hne
  have hdigit := hdigits first (List.mem_cons_self ..)
  intro heq
  rw [String.ofList_inj, List.map_cons, toLower_of_isDigit hdigit] at heq
  rw [(List.cons.inj heq).1, hletter] at hdigit
  cases hdigit

/-- A short integer is read exactly. -/
theorem binary64?_of_shortInteger? {s : String} {k : Int} (h : shortInteger? s.toList = some k) :
    binary64? s = some (.ofInt k) := by
  rw [shortInteger?_eq, Option.map_eq_some_iff] at h
  obtain ⟨n, hn, rfl⟩ := h
  rw [binary64?]
  generalize takeSign s.toList = signed at hn ⊢
  obtain ⟨negative, digits⟩ := signed
  dsimp only at hn ⊢
  rw [shortNatural?, Option.ite_none_right_eq_some, Option.some.injEq] at hn
  obtain ⟨⟨hne, hlength, hall⟩, rfl⟩ := hn
  have hdigits : ∀ c ∈ digits, isDigit c = true := List.all_eq_true.mp hall
  have hnan : String.ofList (digits.map Char.toLower) ≠ "nan" :=
    ofList_toLower_ne hne hdigits (by decide) ['a', 'n']
  have hinf : String.ofList (digits.map Char.toLower) ≠ "inf" :=
    ofList_toLower_ne hne hdigits (by decide) ['n', 'f']
  have hinfinity : String.ofList (digits.map Char.toLower) ≠ "infinity" :=
    ofList_toLower_ne hne hdigits (by decide) ['n', 'f', 'i', 'n', 'i', 't', 'y']
  simp [hnan, hinf, hinfinity, decimal?_of_digits hne hdigits, nearest_of_digits hlength hdigits]

end ShellTutor.Number

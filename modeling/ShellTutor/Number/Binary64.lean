import ShellTutor.Number.Natural

/-!
# Numbers of double precision

A decimal in a text stands for the binary64 number nearest to it. All finite numbers of that format
are whole multiples of its least positive one, so they are kept as integers that count such units,
and comparing them is comparing integers. Reading rounds once, from the exact value, and a tie goes
to the even neighbour.
-/

namespace ShellTutor.Number

/-- A number of double precision. The two zeros are one value here. -/
inductive Binary64 where
  | nan
  | infinite (negative : Bool)
  /-- As many times the least positive number, `2 ^ -1074`. -/
  | finite (units : Int)
  deriving DecidableEq, Repr

/-- The order of numbers. Nothing is below or above `nan`. -/
def Binary64.lt : Binary64 → Binary64 → Bool
  | .nan, _ => false
  | _, .nan => false
  | .infinite a, .infinite b => a && !b
  | .infinite negative, .finite _ => negative
  | .finite _, .infinite negative => !negative
  | .finite a, .finite b => a < b

/-- The integer nearest to `num / den`; a tie goes to the even one. -/
def roundHalfEven (num den : Nat) : Nat :=
  let whole := num / den
  let rest := num % den
  if 2 * rest < den then whole
  else if den < 2 * rest then whole + 1
  else whole + whole % 2

/-- The number of units nearest to `num / den` that has at most 53 significant bits. -/
def roundToUnits (num den : Nat) : Nat :=
  let shift := (num / den).log2 + 1 - 53
  roundHalfEven num (den <<< shift) <<< shift

/-- The numbers from here on, in units, have no room in the format. -/
def overflowUnits : Nat := 1 <<< (1024 + 1074)

/-- A decimal: `digits`, read as a natural number, times ten to the power `exponent`. -/
structure Decimal where
  negative : Bool
  digits : List Char
  exponent : Int

/-- The units of a decimal's size, or `none` when it is too large. A decimal beyond `10 ^ 400` or
below `10 ^ -400` needs no exact arithmetic: the first is too large and the second rounds to
zero. -/
def Decimal.units? (d : Decimal) : Option Nat :=
  let digits := d.digits.dropWhile (· == '0')
  let top := digits.length + d.exponent
  if digits.isEmpty || top < -400 then some 0
  else if 400 < top then none
  else
    let n := ofDigits digits
    let units :=
      if 0 ≤ d.exponent then roundToUnits ((n * Nat.pow 10 d.exponent.toNat) <<< 1074) 1
      else roundToUnits (n <<< 1074) (Nat.pow 10 (-d.exponent).toNat)
    if units < overflowUnits then some units else none

def Decimal.nearest (d : Decimal) : Binary64 :=
  match d.units? with
  | some n => .finite (if d.negative then -(n : Int) else n)
  | none => .infinite d.negative

/-- Splits off the sign in front of a text: whether it is negative, and the rest. -/
def takeSign : List Char → Bool × List Char
  | '-' :: cs => (true, cs)
  | '+' :: cs => (false, cs)
  | cs => (false, cs)

/-- The size of an exponent. Digits count until they have made it `65536` or more; the rest are
passed over, since no number of a reasonable length needs them. -/
def exponentSize (digits : List Char) : Nat :=
  digits.foldl (fun n c => if n < 65536 then 10 * n + digitValue c else n) 0

/-- Reads what may follow a number's digits: nothing, or `e` and an integer. -/
def exponent? : List Char → Option Int
  | [] => some 0
  | c :: cs =>
    let (negative, digits) := takeSign cs
    if (c = 'e' || c = 'E') && !digits.isEmpty && digits.all isDigit then
      some (if negative then -(exponentSize digits : Int) else exponentSize digits)
    else none

/-- Reads the digits of a decimal, with or without a point, and its exponent. -/
def decimal? (negative : Bool) (cs : List Char) : Option Decimal :=
  let whole := cs.takeWhile isDigit
  let (fraction, tail) :=
    match cs.dropWhile isDigit with
    | '.' :: rest => (rest.takeWhile isDigit, rest.dropWhile isDigit)
    | rest => ([], rest)
  if whole.isEmpty && fraction.isEmpty then none
  else (exponent? tail).map fun e => ⟨negative, whole ++ fraction, e - fraction.length⟩

/-- Reads a number: an optional sign, then `inf`, `infinity` or `nan` in any letter case, or a
decimal. -/
def binary64? (s : String) : Option Binary64 :=
  let (negative, cs) := takeSign s.toList
  let word := String.ofList (cs.map Char.toLower)
  if word = "nan" then some .nan
  else if word = "inf" || word = "infinity" then some (.infinite negative)
  else (decimal? negative cs).map Decimal.nearest

end ShellTutor.Number

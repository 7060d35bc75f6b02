import ShellTutor.Text.Column

/-!
# Time stamps and the calendar

A time stamp counts the seconds since the start of 1970, in universal time, and may be negative. The
calendar is the Gregorian one, extended to all years. Dates are written in three forms: short in a
long listing, plain in a report, and in full for the `date` of a script.
-/

namespace ShellTutor

/-- A point in time: seconds since 1970-01-01 00:00 UTC. -/
structure Timestamp where
  seconds : Int
  deriving DecidableEq, Repr

/-- A later (or, for a negative number, earlier) point in time. -/
def Timestamp.advance (t : Timestamp) (seconds : Int) : Timestamp :=
  ⟨t.seconds + seconds⟩

/-- The start of 1970. -/
def Timestamp.epoch : Timestamp := ⟨0⟩

namespace Calendar

/-- A day of the calendar and a time of that day. -/
structure Moment where
  year : Int
  month : Nat
  day : Nat
  hour : Nat
  minute : Nat
  second : Nat
  /-- Days since Sunday. -/
  weekday : Nat
  deriving DecidableEq, Repr

/-- Whether a year has a 29th of February. -/
def isLeap (year : Int) : Bool :=
  year % 4 == 0 && (year % 100 != 0 || year % 400 == 0)

def monthLength (year : Int) (month : Nat) : Nat :=
  match month with
  | 2 => if isLeap year then 29 else 28
  | 4 | 6 | 9 | 11 => 30
  | _ => 31

/-- The number of days from 1970-01-01 to a date. Years are counted from March, so that a leap day
is the last day of its year, and in eras of 400 years, which all have the same length. -/
def daysTo (year : Int) (month day : Nat) : Int :=
  let y := if month ≤ 2 then year - 1 else year
  let era := y / 400
  let yearOfEra := y % 400
  let monthOfYear : Int := (month + 9) % 12
  let dayOfYear := (153 * monthOfYear + 2) / 5 + day - 1
  let dayOfEra := yearOfEra * 365 + yearOfEra / 4 - yearOfEra / 100 + dayOfYear
  era * 146097 + dayOfEra - 719468

/-- Year, month and day of the date that is `days` after 1970-01-01. -/
def dateOf (days : Int) : Int × Nat × Nat :=
  let z := days + 719468
  let era := z / 146097
  let dayOfEra := z % 146097
  let yearOfEra :=
    (dayOfEra - dayOfEra / 1460 + dayOfEra / 36524 - dayOfEra / 146096) / 365
  let dayOfYear := dayOfEra - (365 * yearOfEra + yearOfEra / 4 - yearOfEra / 100)
  let monthOfYear := (5 * dayOfYear + 2) / 153
  let day := dayOfYear - (153 * monthOfYear + 2) / 5 + 1
  let month := (monthOfYear + 2) % 12 + 1
  let year := yearOfEra + era * 400 + if month ≤ 2 then 1 else 0
  (year, month.toNat, day.toNat)

def momentOf (t : Timestamp) : Moment :=
  let days := t.seconds / 86400
  let rest := (t.seconds % 86400).toNat
  let (year, month, day) := dateOf days
  { year, month, day
    hour := rest / 3600
    minute := rest / 60 % 60
    second := rest % 60
    weekday := ((days + 4) % 7).toNat }

def yearRange : Int × Int := (-262143, 262142)

def isDate (year : Int) (month day hour minute : Nat) : Bool :=
  yearRange.1 ≤ year && year ≤ yearRange.2 && 1 ≤ month && month ≤ 12 && 1 ≤ day &&
    day ≤ monthLength year month && hour < 24 && minute < 60

/-- The time stamp of a full minute. A date that does not exist gives the start of 1970. -/
def timestampAt (year : Int) (month day hour minute : Nat) : Timestamp :=
  if isDate year month day hour minute then
    ⟨daysTo year month day * 86400 + (hour * 3600 + minute * 60 : Nat)⟩
  else .epoch

/-- July 28th 2025, noon: the time at which an unset clock stands. -/
def defaultTimestamp : Timestamp :=
  timestampAt 2025 7 28 12 0

def monthNames : List String :=
  ["Jan", "Feb", "Mar", "Apr", "May", "Jun", "Jul", "Aug", "Sep", "Oct", "Nov", "Dec"]

/-- The short English names of the days of the week, Sunday first. -/
def weekdayNames : List String :=
  ["Sun", "Mon", "Tue", "Wed", "Thu", "Fri", "Sat"]

/-- A year has at least four digits, a sign in front when it is negative, and a plus sign when it
has more than four digits. -/
def yearText (year : Int) : String :=
  let digits := Text.zeroPadded 4 year.natAbs
  if year < 0 then "-" ++ digits else if 9999 < year then "+" ++ digits else digits

namespace Moment

def monthName (m : Moment) : String :=
  monthNames.getD (m.month - 1) ""

def weekdayName (m : Moment) : String :=
  weekdayNames.getD m.weekday ""

/-- Hours and minutes, as in `09:05`. -/
def clockText (m : Moment) : String :=
  Text.zeroPadded 2 m.hour ++ ":" ++ Text.zeroPadded 2 m.minute

/-- The form of a long listing, as in `Jul 28 12:00`. -/
def listingText (m : Moment) : String :=
  m.monthName ++ " " ++ Text.zeroPadded 2 m.day ++ " " ++ m.clockText

/-- The form of a report, as in `2025-07-28 12:00`. -/
def reportText (m : Moment) : String :=
  yearText m.year ++ "-" ++ Text.zeroPadded 2 m.month ++ "-" ++ Text.zeroPadded 2 m.day ++ " " ++
    m.clockText

/-- The full form, as in `Mon Jul 28 12:00:00 UTC 2025`. -/
def fullText (m : Moment) : String :=
  m.weekdayName ++ " " ++ m.monthName ++ " " ++ Text.alignRight 2 (toString m.day) ++ " " ++
    m.clockText ++ ":" ++ Text.zeroPadded 2 m.second ++ " UTC " ++ yearText m.year

end Moment

end Calendar

def Timestamp.listingText (t : Timestamp) : String :=
  (Calendar.momentOf t).listingText

def Timestamp.reportText (t : Timestamp) : String :=
  (Calendar.momentOf t).reportText

def Timestamp.fullText (t : Timestamp) : String :=
  (Calendar.momentOf t).fullText

end ShellTutor

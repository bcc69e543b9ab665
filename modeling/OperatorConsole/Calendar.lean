import OperatorConsole.Failure
import OperatorConsole.Scalar

/-!
# Calendar

Times are milliseconds since the start of 1970, in UTC, of the proleptic Gregorian
calendar.

## Days

`civilDate` turns a count of days since 1970 into a date and `daysTo` turns a date into
such a count.  Both begin a year with its first of March, so that the leap day ends it,
and work in eras of 400 years, which all have the same length.

## Display

`isoChars` is the usual text of a time.  Years outside 0 to 9999 are written with a
sign and six digits.
-/

namespace OperatorConsole

namespace Calendar

structure Date where
  year : Int
  month : Nat
  day : Nat
  deriving DecidableEq, Repr

structure Clock where
  hour : Nat
  minute : Nat
  second : Nat
  millisecond : Nat
  deriving DecidableEq, Repr

def dayMs : Int :=
  24 * 60 * 60 * 1000

/-! ## Dates -/

def isLeapYear (year : Int) : Bool :=
  year % 4 == 0 && (year % 100 != 0 || year % 400 == 0)

def daysInMonth (year : Int) : Nat -> Nat
  | 2 => if isLeapYear year then 29 else 28
  | 4 => 30
  | 6 => 30
  | 9 => 30
  | 11 => 30
  | _ => 31

/-- The days from the first of March of year zero to the start of 1970. -/
def epochDays : Int :=
  719468

def civilDate (days : Int) : Date :=
  let z := days + epochDays
  let era := z / 146097
  let dayOfEra := (z % 146097).toNat
  let yearOfEra := (dayOfEra - dayOfEra / 1460 + dayOfEra / 36524 - dayOfEra / 146096) / 365
  let dayOfYear := dayOfEra - (365 * yearOfEra + yearOfEra / 4 - yearOfEra / 100)
  let monthIndex := (5 * dayOfYear + 2) / 153
  let day := dayOfYear - (153 * monthIndex + 2) / 5 + 1
  let month := if monthIndex < 10 then monthIndex + 3 else monthIndex - 9
  let year := era * 400 + yearOfEra + (if month ≤ 2 then 1 else 0)
  ⟨year, month, day⟩

/-- The days from the start of 1970 to a date.  Days beyond the end of a month run on
into the next one. -/
def daysTo (date : Date) : Int :=
  let year := if date.month ≤ 2 then date.year - 1 else date.year
  let yearOfEra := year % 400
  let dayOfYear := (153 * ((date.month + 9) % 12) + 2) / 5 + date.day - 1
  year / 400 * 146097 + 365 * yearOfEra + yearOfEra / 4 - yearOfEra / 100 + dayOfYear - epochDays

def clockOf (ms : Nat) : Clock :=
  ⟨ms / 3600000, ms / 60000 % 60, ms / 1000 % 60, ms % 1000⟩

def Clock.milliseconds (clock : Clock) : Nat :=
  ((clock.hour * 60 + clock.minute) * 60 + clock.second) * 1000 + clock.millisecond

/-! ## Text -/

def padded (count n : Nat) : List Char :=
  let digits := Nat.toDigits 10 n
  List.replicate (count - digits.length) '0' ++ digits

def yearText (year : Int) : List Char :=
  if 0 ≤ year && year ≤ 9999 then padded 4 year.toNat
  else (if year < 0 then '-' else '+') :: padded 6 year.natAbs

def dateText (date : Date) : List Char :=
  yearText date.year ++ '-' :: padded 2 date.month ++ '-' :: padded 2 date.day

def clockText (clock : Clock) : List Char :=
  padded 2 clock.hour ++ ':' :: padded 2 clock.minute ++ ':' :: padded 2 clock.second ++
    '.' :: padded 3 clock.millisecond

def isoChars (separator : Char) (ms : Int) : List Char :=
  dateText (civilDate (ms / dayMs)) ++
    separator :: (clockText (clockOf (ms % dayMs).toNat) ++ ['Z'])

/-! ## Valid times -/

/-- The whole milliseconds of a time, if it lies within a hundred million days of 1970. -/
def milliseconds? (time : Number) : Option Int :=
  match time.truncate.toInt? with
  | some ms => if ms.natAbs ≤ 8640000000000000 then some ms else none
  | none => none

def invalidTime : Failure :=
  .fault .outOfRange "Invalid time value"

/-- The first characters of the text of a time. -/
def leadingText (separator : Char) (count : Nat) (time : Number) : Except Failure String :=
  match milliseconds? time with
  | some ms => .ok (String.ofList ((isoChars separator ms).take count))
  | none => .error invalidTime

/-- Date and time of day for people, such as `2026-03-01 14:05:09 UTC`. -/
def displayText (time : Number) : Except Failure String :=
  match leadingText ' ' 19 time with
  | .ok text => .ok (text ++ " UTC")
  | .error failure => .error failure

/-- The seconds from one time to another, to the millisecond; never negative. -/
def elapsedSeconds (start finish : Number) : Number :=
  (Number.max 0 (finish.sub start)).roundHalfUp.div 1000

end Calendar

end OperatorConsole

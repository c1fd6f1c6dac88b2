import SqlRenewal.Ledger.Record
import SqlRenewal.Text.Integer

/-!
# Times

A moment is a date and a time of day in universal time. Records show moments to
the microsecond, with the fraction left out when it is zero; logs show them to
the millisecond.
-/
namespace SqlRenewal

/-- A date and a time of day. -/
structure Moment where
  year : Nat
  month : Nat
  day : Nat
  hour : Nat
  minute : Nat
  second : Nat
  microsecond : Nat
deriving DecidableEq, Repr

namespace Moment

/-- The date that lies the given number of days after the first of January 1970.
Years are counted from March on, so that the leap day is the last of a year. -/
def dateOf (days : Nat) : Nat × Nat × Nat :=
  let shifted := days + 719468
  let era := shifted / 146097
  let dayOfEra := shifted % 146097
  let yearOfEra := (dayOfEra - dayOfEra / 1460 + dayOfEra / 36524 - dayOfEra / 146096) / 365
  let dayOfYear := dayOfEra - (365 * yearOfEra + yearOfEra / 4 - yearOfEra / 100)
  let shiftedMonth := (5 * dayOfYear + 2) / 153
  let day := dayOfYear - (153 * shiftedMonth + 2) / 5 + 1
  let month := if shiftedMonth < 10 then shiftedMonth + 3 else shiftedMonth - 9
  let year := yearOfEra + era * 400
  (if month ≤ 2 then year + 1 else year, month, day)

/-- The moment that lies the given number of microseconds after the beginning of
the year 1970. -/
def ofMicroseconds (count : Nat) : Moment :=
  let seconds := count / 1000000
  let (year, month, day) := dateOf (seconds / 86400)
  { year, month, day
    hour := seconds / 3600 % 24
    minute := seconds / 60 % 60
    second := seconds % 60
    microsecond := count % 1000000 }

/-- A number in at least the given count of digits. -/
def padded (width n : Nat) : Text :=
  let digits := natDigits n
  List.replicate (width - digits.length) '0' ++ digits

/-- The date. -/
def date (moment : Moment) : Text :=
  padded 4 moment.year ++ '-' :: padded 2 moment.month ++ '-' :: padded 2 moment.day

/-- The time of day to the second. -/
def time (moment : Moment) : Text :=
  padded 2 moment.hour ++ ':' :: padded 2 moment.minute ++ ':' :: padded 2 moment.second

/-- The moment as records show it. -/
def stamp (moment : Moment) : Stamp :=
  moment.date ++ 'T' :: moment.time ++
    (if moment.microsecond = 0 then [] else '.' :: padded 6 moment.microsecond)

/-- The moment as logs show it. -/
def logStamp (moment : Moment) : Text :=
  moment.date ++ ' ' :: moment.time ++ ',' :: padded 3 (moment.microsecond / 1000)

end Moment

end SqlRenewal

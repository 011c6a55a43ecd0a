/-
# BibAudit.Clock — moments counted from 1970.

A clock counts seconds and nanoseconds from the first moment of 1970, UTC, and knows no leap seconds.
The date is found by taking off whole years, then whole months, from the number of days.
-/
import BibAudit.Timestamp

namespace BibAudit.Clock

/-- The days of a year. -/
def daysInYear (year : Nat) : Nat :=
  if Timestamp.isLeapYear year then 366 else 365

/-- The year of a day that is so many days after the start of `year`, and the days left in it, when
`steps` years at most are taken off. -/
def yearOf : Nat → Nat → Nat → Nat × Nat
  | 0, year, days => (year, days)
  | steps + 1, year, days =>
    if days < daysInYear year then (year, days)
    else yearOf steps (year + 1) (days - daysInYear year)

/-- The month of a day that is so many days after the start of `month`, and the days left in it, when
`steps` months at most are taken off. -/
def monthOf (year : Nat) : Nat → Nat → Nat → Nat × Nat
  | 0, month, days => (month, days)
  | steps + 1, month, days =>
    if days < Timestamp.daysInMonth year month then (month, days)
    else monthOf year steps (month + 1) (days - Timestamp.daysInMonth year month)

/-- The timestamp of a moment, up to the year 9999. -/
def timestamp? (nanos : Nat) : Option Timestamp :=
  let seconds := nanos / 1000000000
  let days := seconds / 86400
  let (year, inYear) := yearOf (days / 365) 1970 days
  let (month, inMonth) := monthOf year 11 1 inYear
  Timestamp.ofParts? year month (inMonth + 1) (seconds / 3600 % 24) (seconds / 60 % 60)
    (seconds % 60) (nanos % 1000000000) 0

end BibAudit.Clock

/-!
# Instants and calendar dates

An instant counts the seconds since the start of 1970, UTC, and the nanoseconds within the second.
A leap second is the second that follows the last second of a minute: its nanoseconds run from a
thousand million up, and its seconds are those of the second before.

* `Instant` — the instants. The condition on leap seconds is part of the type.
* `Date.ofDays` — the date of a day in the Gregorian calendar, which is applied to all years. Years
  are counted from March, so that a leap day is the last day of its year; four hundred such years
  have `146097` days.
* `Instant.date`, `Instant.hour`, … — the parts of an instant as a clock shows them. A leap second
  is second `60`.
* `Instant.plus` — the instant a number of milliseconds later.
-/

namespace SearchRequest

/-! ## Dates -/

/-- A year, a month from 1 to 12 and a day from 1. -/
structure Date where
  year : Int
  month : Nat
  day : Nat
deriving DecidableEq, Repr

namespace Date

/-- The days in four hundred years. -/
def daysPerEra : Int := 146097

/-- The years that begin in March of year `400 * e`, numbered from zero: the year of a day, given
as the day's number in those four hundred years. -/
def yearOfEra (dayOfEra : Int) : Int :=
  (dayOfEra - dayOfEra / 1460 + dayOfEra / 36524 - dayOfEra / 146096) / 365

/-- The first day of a year of four hundred. -/
def firstDayOfYear (yearOfEra : Int) : Int :=
  365 * yearOfEra + yearOfEra / 4 - yearOfEra / 100

/-- The date of a day, counted from the first day of 1970. -/
def ofDays (days : Int) : Date :=
  let fromMarch := days + 719468
  let era := fromMarch / daysPerEra
  let dayOfEra := fromMarch % daysPerEra
  let year := yearOfEra dayOfEra
  let dayOfYear := dayOfEra - firstDayOfYear year
  let monthFromMarch := (5 * dayOfYear + 2) / 153
  let day := dayOfYear - (153 * monthFromMarch + 2) / 5 + 1
  let month := if monthFromMarch < 10 then monthFromMarch + 3 else monthFromMarch - 9
  { year := year + era * 400 + if month ≤ 2 then 1 else 0
    month := month.toNat
    day := day.toNat }

/-- The years of which dates are kept. -/
def yearInRange (year : Int) : Bool := -262143 ≤ year && year ≤ 262142

end Date

/-! ## Instants -/

/-- The nanoseconds of a second. -/
def nanosPerSecond : Nat := 1000000000

/-- The nanoseconds of a millisecond. -/
def nanosPerMilli : Nat := 1000000

/-- The nanoseconds of a microsecond. -/
def nanosPerMicro : Nat := 1000

/-- The seconds since the start of 1970, and the nanoseconds within the second. -/
structure Instant where
  seconds : Int
  nanos : Nat
  valid : nanos < nanosPerSecond ∨ (nanos < 2 * nanosPerSecond ∧ seconds % 60 = 59) := by decide
deriving DecidableEq, Repr

namespace Instant

/-- The seconds of a day. -/
def secondsPerDay : Int := 86400

/-- The date of an instant. -/
def date (t : Instant) : Date := .ofDays (t.seconds / secondsPerDay)

/-- The second of its day in which an instant falls, a leap second aside. -/
def secondOfDay (t : Instant) : Nat := (t.seconds % secondsPerDay).toNat

/-- The hour of an instant. -/
def hour (t : Instant) : Nat := t.secondOfDay / 3600

/-- The minute of an instant. -/
def minute (t : Instant) : Nat := t.secondOfDay / 60 % 60

/-- The instant falls in a leap second. -/
def isLeap (t : Instant) : Bool := nanosPerSecond ≤ t.nanos

/-- The second of an instant, `60` for a leap second. -/
def second (t : Instant) : Nat := t.secondOfDay % 60 + if t.isLeap then 1 else 0

/-- The nanoseconds since the second began. -/
def subsecond (t : Instant) : Nat := t.nanos % nanosPerSecond

/-- The instant given by its two counts, if they make one within the range of dates. -/
def ofParts? (seconds : Int) (nanos : Nat) : Option Instant :=
  if h : nanos < nanosPerSecond ∨ (nanos < 2 * nanosPerSecond ∧ seconds % 60 = 59) then
    let t : Instant := ⟨seconds, nanos, h⟩
    if Date.yearInRange t.date.year then some t else none
  else none

/-- The order of instants. -/
def le (a b : Instant) : Bool :=
  a.seconds < b.seconds || (a.seconds == b.seconds && a.nanos ≤ b.nanos)

/-- The nanoseconds since the start of 1970 for an instant outside leap seconds. -/
def totalNanos (t : Instant) : Int := t.seconds * nanosPerSecond + t.nanos

/-- The instant a number of nanoseconds after the start of 1970, if it is within the range. -/
def ofTotalNanos? (total : Int) : Option Instant :=
  ofParts? (total / nanosPerSecond) (total % nanosPerSecond).toNat

/-- The instant a number of milliseconds later, if it is within the range of dates. Leap seconds
are not counted. -/
def plusMillis? (t : Instant) (millis : Int) : Option Instant :=
  ofTotalNanos? (t.totalNanos + millis * nanosPerMilli)

end Instant

end SearchRequest

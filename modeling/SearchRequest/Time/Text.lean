import SearchRequest.Time.Instant

/-!
# Instants as text

* `Instant.rfc3339` — the form in requests: `2024-01-31T23:59:59.999Z`, always with three digits
  of the second's fraction. Finer parts of the second are cut off.
* `Instant.prose` — the form in messages: `2024-01-31 23:59:59 UTC`, with the fewest of zero, three,
  six and nine digits of the second's fraction that lose nothing.

A year has four digits; one before 0 or after 9999 has a sign in front, and as many digits as it
needs.
-/

namespace SearchRequest

/-- A natural number with zeros in front up to the given width. -/
def padded (width n : Nat) : List Char :=
  let digits := Nat.toDigits 10 n
  List.replicate (width - digits.length) '0' ++ digits

namespace Instant

/-- A year. -/
def yearChars (year : Int) : List Char :=
  if 0 ≤ year && year ≤ 9999 then padded 4 year.natAbs
  else (if year < 0 then '-' else '+') :: padded 4 year.natAbs

/-- The date of an instant. -/
def dateChars (t : Instant) : List Char :=
  let d := t.date
  yearChars d.year ++ '-' :: padded 2 d.month ++ '-' :: padded 2 d.day

/-- The time of day of an instant, to the second. -/
def clockChars (t : Instant) : List Char :=
  padded 2 t.hour ++ ':' :: padded 2 t.minute ++ ':' :: padded 2 t.second

/-- The form in requests. -/
def rfc3339Chars (t : Instant) : List Char :=
  t.dateChars ++ 'T' :: t.clockChars ++ '.' :: padded 3 (t.subsecond / nanosPerMilli) ++ ['Z']

@[inherit_doc rfc3339Chars]
def rfc3339 (t : Instant) : String := String.ofList t.rfc3339Chars

/-- The fraction of a second in the fewest digits that lose nothing. -/
def fractionChars (nanos : Nat) : List Char :=
  if nanos = 0 then []
  else if nanos % nanosPerMilli = 0 then '.' :: padded 3 (nanos / nanosPerMilli)
  else if nanos % nanosPerMicro = 0 then '.' :: padded 6 (nanos / nanosPerMicro)
  else '.' :: padded 9 nanos

/-- The form in messages. -/
def prose (t : Instant) : String :=
  String.ofList (t.dateChars ++ ' ' :: t.clockChars ++ fractionChars t.subsecond ++
    [' ', 'U', 'T', 'C'])

end Instant

end SearchRequest

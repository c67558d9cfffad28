import SearchRequest.Proofs.TimeOrder

/-!
# Times read back

A backend reads the ends of a window from their texts, and a text says nothing about an instant
below the millisecond. What is read back is the start of the millisecond, which is early enough for
the start of a window, but too early for its end.

* `Instant.ofRfc3339?` — the instant that a text denotes. It counts days by the rules of the
  calendar (`Date.number`), not by the divisions that found the date.
* `Instant.floorMilli` — the start of the millisecond of an instant, and what its text denotes
  (`Instant.ofRfc3339?_rfc3339`).
* `timeWindow_spans` — the instants of a window that its texts leave out: those in the millisecond
  in which it ends, but for the start of this millisecond.
-/

namespace SearchRequest

/-- A number of some width behind a mark, and what stands behind the number. -/
def fieldBehind? (mark : Char) (width : Nat) : List Char → Option (Nat × List Char)
  | c :: rest => if c = mark then field? width rest else none
  | [] => none

theorem fieldBehind?_padded {width n : Nat} (h : n < 10 ^ (width + 1)) (mark : Char)
    (rest : List Char) :
    fieldBehind? mark (width + 1) (mark :: (padded (width + 1) n ++ rest)) = some (n, rest) :=
  (if_pos rfl).trans (field?_padded h rest)

namespace Instant

variable {a t : Instant}

/-! ## What a text denotes -/

/-- The instant at which a calendar and a clock show these numbers, if they ever do. -/
def ofClock? (date : Date) (hour minute second milli : Nat) : Option Instant :=
  let leap := if second = 60 then 1 else 0
  if date.Valid ∧ hour < 24 ∧ minute < 60 ∧ second ≤ 60 then
    ofParts?
      (date.number * secondsPerDay + (hour * 3600 + minute * 60 + (second - leap) : Nat))
      (leap * nanosPerSecond + milli * nanosPerMilli)
  else none

/-- The instant that a text in the form of requests denotes. -/
def ofRfc3339Chars? (cs : List Char) : Option Instant := do
  let (year, cs) ← field? 4 cs
  let (month, cs) ← fieldBehind? '-' 2 cs
  let (day, cs) ← fieldBehind? '-' 2 cs
  let (hour, cs) ← fieldBehind? 'T' 2 cs
  let (minute, cs) ← fieldBehind? ':' 2 cs
  let (second, cs) ← fieldBehind? ':' 2 cs
  let (milli, cs) ← fieldBehind? '.' 3 cs
  if cs = ['Z'] then ofClock? ⟨year, month, day⟩ hour minute second milli else none

@[inherit_doc ofRfc3339Chars?]
def ofRfc3339? (text : String) : Option Instant := ofRfc3339Chars? text.toList

/-- Milliseconds begin within their second, be it a leap second or not. -/
theorem floorMilli_valid (t : Instant) :
    t.nanos / nanosPerMilli * nanosPerMilli < nanosPerSecond ∨
      t.nanos / nanosPerMilli * nanosPerMilli < 2 * nanosPerSecond ∧ t.seconds % 60 = 59 := by
  have hvalid := t.valid
  simp only [nanosPerSecond, nanosPerMilli] at hvalid ⊢
  omega

/-- The start of the millisecond of an instant. -/
def floorMilli (t : Instant) : Instant :=
  ⟨t.seconds, t.nanos / nanosPerMilli * nanosPerMilli, t.floorMilli_valid⟩

/-! ## Reading what was written -/

theorem date_number (t : Instant) : t.date.number = t.seconds / secondsPerDay :=
  Date.number_ofDays _

theorem ofParts?_floorMilli (h : t.FourDigitYear) :
    ofParts? t.floorMilli.seconds t.floorMilli.nanos = some t.floorMilli := by
  have hyear : Date.yearInRange t.floorMilli.date.year = true := by
    obtain ⟨hpos, hle⟩ : t.floorMilli.FourDigitYear := h
    simp only [Date.yearInRange, Bool.and_eq_true, decide_eq_true_eq]
    omega
  rw [ofParts?, dif_pos t.floorMilli.valid]
  exact if_pos hyear

/-- The parts of an instant, as they are shown, denote the start of its millisecond. -/
theorem ofClock?_parts (h : t.FourDigitYear) :
    ofClock? t.date t.hour t.minute t.second (t.subsecond / nanosPerMilli) = some t.floorMilli := by
  have hday := t.secondOfDay_lt
  have hsecond := t.second_cases
  have hshown : t.date.Valid ∧ t.hour < 24 ∧ t.minute < 60 ∧ t.second ≤ 60 := by
    refine ⟨Date.valid_ofDays _, ?_⟩
    simp only [hour, minute]
    omega
  have hseconds : t.date.number * secondsPerDay +
      (t.hour * 3600 + t.minute * 60 + (t.second - if t.second = 60 then 1 else 0) : Nat) =
        t.floorMilli.seconds := by
    rw [date_number]
    simp only [hour, minute, floorMilli, secondOfDay, secondsPerDay] at hsecond ⊢
    split <;> omega
  have hnanos : (if t.second = 60 then 1 else 0) * nanosPerSecond +
      t.subsecond / nanosPerMilli * nanosPerMilli = t.floorMilli.nanos := by
    change _ = t.nanos / nanosPerMilli * nanosPerMilli
    -- second 60 is shown for a leap second only
    rcases hsecond with ⟨hnanos, hshown⟩ | ⟨hnanos, hshown, hlast⟩
    · rw [if_neg (by omega), Nat.zero_mul, Nat.zero_add, ← hnanos]
    · rw [if_pos (by omega), hnanos]
      simp only [nanosPerSecond, nanosPerMilli]
      omega
  rw [ofClock?, if_pos hshown, hseconds, hnanos]
  exact ofParts?_floorMilli h

/-- **A written time** denotes the start of its millisecond. -/
theorem ofRfc3339?_rfc3339 (h : t.FourDigitYear) : ofRfc3339? t.rfc3339 = some t.floorMilli := by
  obtain ⟨hMonth, hDay⟩ := t.date_lt
  obtain ⟨hHour, hMinute, hSecond, hMilli⟩ := t.clock_lt
  have hdate : (⟨t.date.year.natAbs, t.date.month, t.date.day⟩ : Date) = t.date := by
    have hyear : (t.date.year.natAbs : Int) = t.date.year := Int.natAbs_of_nonneg h.1
    rw [hyear]
  rw [ofRfc3339?, rfc3339, String.toList_ofList, ofRfc3339Chars?, rfc3339Chars_eq h,
    field?_padded (year_lt h)]
  simp only [Option.bind_eq_bind, Option.bind_some, fieldBehind?_padded hMonth,
    fieldBehind?_padded hDay, fieldBehind?_padded hHour, fieldBehind?_padded hMinute,
    fieldBehind?_padded hSecond, fieldBehind?_padded hMilli, if_true, hdate]
  exact ofClock?_parts h

/-! ## The start of a millisecond -/

theorem floorMilli_eq_self (h : t.nanos % nanosPerMilli = 0) : t.floorMilli = t := by
  have hnanos : t.nanos / nanosPerMilli * nanosPerMilli = t.nanos :=
    Nat.div_mul_cancel (Nat.dvd_of_mod_eq_zero h)
  simp only [floorMilli, hnanos]

theorem floorMilli_le (h : a.le t = true) : a.floorMilli.le t = true := by
  have hnanos : a.floorMilli.nanos ≤ a.nanos := Nat.div_mul_le_self _ _
  rcases le_iff.1 h with hlt | ⟨heq, hle⟩
  · exact le_iff.2 (.inl hlt)
  · exact le_iff.2 (.inr ⟨heq, hnanos.trans hle⟩)

/-- Of the instants up to another one, those come later than the start of its millisecond that fall
into this millisecond and are not its start. -/
theorem le_floorMilli_eq_false_iff (h : t.le a = true) :
    t.le a.floorMilli = false ↔ t.millis = a.millis ∧ t.nanos % nanosPerMilli ≠ 0 := by
  have hnanos : a.floorMilli.nanos = a.nanos / nanosPerMilli * nanosPerMilli := rfl
  have hseconds : a.floorMilli.seconds = a.seconds := rfl
  rw [← Bool.not_eq_true, le_iff, hnanos, hseconds, millis, millis, EmbeddingLike.apply_eq_iff_eq,
    Prod.mk.injEq]
  rw [le_iff] at h
  simp only [nanosPerMilli]
  omega

end Instant

/-! ## Windows -/

/-- **What a window spans**, by the instants that its two texts denote. Nothing before the end is
lost but what falls into the millisecond of the end and is not its start. So the window holds all
that was asked for just if it ends at the start of a millisecond. -/
theorem timeWindow_spans {start stop : Instant} (hstart : start.FourDigitYear)
    (hstop : stop.FourDigitYear) (h : start.le stop = true) (field context : String) :
    ∃ gte lte lower upper,
      timeWindow start stop field context =
        .ok (.obj [("gte", .str gte), ("lte", .str lte)]) ∧
      Instant.ofRfc3339? gte = some lower ∧ Instant.ofRfc3339? lte = some upper ∧
      (∀ t, start.le t = true → t.le stop = true →
        lower.le t = true ∧
          (t.le upper = false ↔ t.millis = stop.millis ∧ t.nanos % nanosPerMilli ≠ 0)) ∧
      ((∀ t, start.le t = true → t.le stop = true → t.le upper = true) ↔
        stop.nanos % nanosPerMilli = 0) := by
  refine ⟨start.rfc3339, stop.rfc3339, start.floorMilli, stop.floorMilli,
    timeWindow_eq_ok_iff.2 ⟨h, rfl⟩, Instant.ofRfc3339?_rfc3339 hstart,
    Instant.ofRfc3339?_rfc3339 hstop, fun t ht ht' => ?_, ?_, ?_⟩
  · exact ⟨Instant.floorMilli_le ht, Instant.le_floorMilli_eq_false_iff ht'⟩
  · intro hall
    have hself : stop.le stop = true := Instant.le_iff.2 (.inr ⟨rfl, le_rfl⟩)
    by_contra hcut
    have hlost := (Instant.le_floorMilli_eq_false_iff hself).2 ⟨rfl, hcut⟩
    rw [hall stop h hself] at hlost
    cases hlost
  · intro hwhole t _ ht'
    have hfloor : stop.floorMilli = stop := Instant.floorMilli_eq_self hwhole
    rwa [hfloor]

/-- A window of less than a millisecond, and the instant in its middle. -/
theorem timeWindow_spans_within_millisecond :
    let start : Instant := ⟨0, 0, by decide⟩
    let middle : Instant := ⟨0, 500000, by decide⟩
    let stop : Instant := ⟨0, 999999, by decide⟩
    start.FourDigitYear ∧ stop.FourDigitYear ∧ start.le stop = true ∧
      ∃ gte lte lower upper,
        timeWindow start stop "@timestamp" "time_range" =
          .ok (.obj [("gte", .str gte), ("lte", .str lte)]) ∧
        Instant.ofRfc3339? gte = some lower ∧ Instant.ofRfc3339? lte = some upper ∧
        lower.le middle = true ∧ middle.le upper = false := by
  intro start middle stop
  have hstart : start.FourDigitYear := by decide
  have hstop : stop.FourDigitYear := by decide
  obtain ⟨gte, lte, lower, upper, hwindow, hgte, hlte, hspan, -⟩ :=
    timeWindow_spans hstart hstop rfl "@timestamp" "time_range"
  obtain ⟨hlower, hlost⟩ := hspan middle rfl rfl
  exact ⟨hstart, hstop, rfl, gte, lte, lower, upper, hwindow, hgte, hlte, hlower,
    hlost.2 ⟨by decide, by decide⟩⟩

/-- The end of a window is not in it: the last nanosecond of a millisecond is written like the
first one. -/
theorem timeWindow_ends_early :
    let start : Instant := ⟨0, 0, by decide⟩
    let stop : Instant := ⟨0, 999999, by decide⟩
    start.FourDigitYear ∧ stop.FourDigitYear ∧ start.isLeap = false ∧ stop.isLeap = false ∧
      start.le stop = true ∧ stop.le stop = true ∧
      timeWindow start stop "@timestamp" "time_range" =
        .ok (.obj [("gte", .str "1970-01-01T00:00:00.000Z"),
          ("lte", .str "1970-01-01T00:00:00.000Z")]) ∧
      Instant.ofRfc3339? "1970-01-01T00:00:00.000Z" = some start ∧ stop.le start = false := by
  intro start stop
  have hyear : start.FourDigitYear := by decide
  have hstart : start.rfc3339 = "1970-01-01T00:00:00.000Z" := by decide
  have hstop : stop.rfc3339 = "1970-01-01T00:00:00.000Z" := by decide
  refine ⟨hyear, by decide, rfl, rfl, rfl, rfl, ?_, ?_, rfl⟩
  · exact timeWindow_eq_ok_iff.2 ⟨rfl, by rw [windowBounds, hstart, hstop]⟩
  · rw [← hstart, Instant.ofRfc3339?_rfc3339 hyear, Instant.floorMilli_eq_self rfl]

end SearchRequest

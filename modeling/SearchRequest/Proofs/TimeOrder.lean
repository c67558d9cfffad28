import SearchRequest.Proofs.Appending
import SearchRequest.Proofs.Calendar
import SearchRequest.Proofs.FixedWidth

/-!
# The order of times

The text of an instant shows its date and its time of day down to the millisecond, all in numbers of
a fixed width. In years of four digits the order of the texts, byte by byte, is therefore that of
the parts that are shown (`Instant.rfc3339Chars_lt_iff`). That the parts are in the order of time
needs the calendar between days, and the leap second within a minute: it is shown as second 60,
which is after all the others of its minute and before the first of the next one.

* `Instant.millis` — an instant down to the millisecond, the part of it that its text is about.
* `Instant.rfc3339_lt_iff`, `Instant.rfc3339_eq_iff` — the order of texts.
* `Call.window?` — the calls for a window, and `Builder.perform_window` for what they add.
* `Instant.rfc3339_ordered` — all of this, and with it the order of the two ends of a window.
-/

namespace SearchRequest

namespace Instant

variable {a b t : Instant}

/-! ## The parts of an instant -/

/-- The year of the instant has four digits. -/
def FourDigitYear (t : Instant) : Prop := 0 ≤ t.date.year ∧ t.date.year ≤ 9999

instance (t : Instant) : Decidable t.FourDigitYear := inferInstanceAs (Decidable (_ ∧ _))

/-- The instant to the millisecond: its second, and the milliseconds within it. -/
def millis (t : Instant) : Int ×ₗ Nat := toLex (t.seconds, t.nanos / nanosPerMilli)

/-- The parts of an instant that are written, the larger ones first. -/
def parts (t : Instant) : (Int ×ₗ Nat ×ₗ Nat) ×ₗ Nat ×ₗ Nat ×ₗ Nat ×ₗ Nat :=
  toLex (t.date.key, toLex (t.hour, toLex (t.minute,
    toLex (t.second, t.subsecond / nanosPerMilli))))

/-- What a clock shows of the second: an ordinary one, or the leap second at the end of a minute. -/
theorem second_cases (t : Instant) :
    (t.nanos = t.subsecond ∧ t.second = t.secondOfDay % 60) ∨
      (t.nanos = t.subsecond + nanosPerSecond ∧ t.second = t.secondOfDay % 60 + 1 ∧
        t.secondOfDay % 60 = 59) := by
  have hvalid := t.valid
  simp only [nanosPerSecond] at hvalid
  simp only [second, subsecond, isLeap, secondOfDay, secondsPerDay, nanosPerSecond]
  by_cases hleap : 1000000000 ≤ t.nanos
  · simp only [hleap, decide_true, if_true, true_and]
    omega
  · simp only [hleap, decide_false, Bool.false_eq_true, if_false, Nat.add_zero, and_true]
    omega

theorem subsecond_lt (t : Instant) : t.subsecond < nanosPerSecond := Nat.mod_lt _ (by decide)

theorem secondOfDay_lt (t : Instant) : t.secondOfDay < 86400 := by
  simp only [secondOfDay, secondsPerDay]
  omega

theorem clock_lt (t : Instant) :
    t.hour < 10 ^ 2 ∧ t.minute < 10 ^ 2 ∧ t.second < 10 ^ 2 ∧
      t.subsecond / nanosPerMilli < 10 ^ 3 := by
  have hday := t.secondOfDay_lt
  have hsecond := t.second_cases
  have hsub := t.subsecond_lt
  simp only [hour, minute, nanosPerMilli, nanosPerSecond] at *
  omega

/-! ## Order -/

/-- Instants of one day have one date. -/
theorem date_eq (h : a.seconds / secondsPerDay = b.seconds / secondsPerDay) : a.date = b.date := by
  rw [date, date, h]

theorem parts_eq_of_millis (h : a.millis = b.millis) : a.parts = b.parts := by
  simp only [millis, EmbeddingLike.apply_eq_iff_eq, Prod.mk.injEq, nanosPerMilli] at h
  obtain ⟨hseconds, hmillis⟩ := h
  have hday : a.secondOfDay = b.secondOfDay := by
    rw [secondOfDay, secondOfDay, hseconds]
  have hsecond : a.second = b.second ∧
      a.subsecond / nanosPerMilli = b.subsecond / nanosPerMilli := by
    have ha := a.second_cases
    have hb := b.second_cases
    have ha' := a.subsecond_lt
    have hb' := b.subsecond_lt
    simp only [nanosPerMilli, nanosPerSecond] at *
    omega
  have hdate : a.date = b.date := date_eq (congrArg (· / secondsPerDay) hseconds)
  rw [parts, parts, hdate, hour, hour, minute, minute, hday, hsecond.1, hsecond.2]

/-- A later millisecond shows on the clock. -/
theorem parts_lt_of_millis_lt (h : a.millis < b.millis) : a.parts < b.parts := by
  have ha := a.second_cases
  have hb := b.second_cases
  simp only [parts, Prod.Lex.toLex_lt_toLex]
  rcases Prod.Lex.toLex_lt_toLex.1 h with hlt | ⟨heq, hlt⟩
  · have hdays : a.seconds / secondsPerDay ≤ b.seconds / secondsPerDay :=
      Int.ediv_le_ediv (by decide) (le_of_lt hlt)
    rcases hdays.lt_or_eq with hday | hday
    · exact .inl (Date.key_ofDays_lt hday)
    · -- on one day the time of day decides
      have hseconds : a.secondOfDay < b.secondOfDay := by
        simp only [secondOfDay, secondsPerDay] at hday hlt ⊢
        omega
      refine .inr ⟨by rw [date_eq hday], ?_⟩
      simp only [hour, minute]
      omega
  · have hday : a.secondOfDay = b.secondOfDay := by
      rw [secondOfDay, secondOfDay, show a.seconds = b.seconds from heq]
    have ha' := a.subsecond_lt
    have hb' := b.subsecond_lt
    refine .inr ⟨by rw [date_eq (congrArg (· / secondsPerDay) heq)], ?_⟩
    simp only [hour, minute, hday, nanosPerMilli, nanosPerSecond, lt_irrefl, false_or,
      true_and] at *
    omega

theorem parts_lt_iff : a.parts < b.parts ↔ a.millis < b.millis := by
  refine ⟨fun h => ?_, parts_lt_of_millis_lt⟩
  by_contra hnot
  rcases (not_lt.1 hnot).lt_or_eq with hlt | heq
  · exact lt_asymm h (parts_lt_of_millis_lt hlt)
  · exact absurd h (parts_eq_of_millis heq).not_gt

/-! ## Texts -/

theorem date_lt (t : Instant) : t.date.month < 10 ^ 2 ∧ t.date.day < 10 ^ 2 := by
  have hvalid : t.date.Valid := Date.valid_ofDays _
  have hmonth := hvalid.month_le
  have hday := hvalid.day_le.trans (Date.daysInMonth_le _ _)
  omega

theorem year_lt (h : t.FourDigitYear) : t.date.year.natAbs < 10 ^ 4 := by
  obtain ⟨hpos, hle⟩ := h
  omega

/-- The text of an instant, each number followed by what stands behind it. -/
theorem rfc3339Chars_eq (h : t.FourDigitYear) :
    t.rfc3339Chars = padded 4 t.date.year.natAbs ++ '-' :: (padded 2 t.date.month ++ '-' ::
      (padded 2 t.date.day ++ 'T' :: (padded 2 t.hour ++ ':' :: (padded 2 t.minute ++ ':' ::
        (padded 2 t.second ++ '.' :: (padded 3 (t.subsecond / nanosPerMilli) ++ ['Z'])))))) := by
  have hyear : yearChars t.date.year = padded 4 t.date.year.natAbs :=
    if_pos (by simp only [h.1, h.2, decide_true, Bool.and_self])
  simp only [rfc3339Chars, dateChars, clockChars, hyear, List.append_assoc, List.cons_append]

theorem rfc3339Chars_lt_iff (ha : a.FourDigitYear) (hb : b.FourDigitYear) :
    a.rfc3339Chars < b.rfc3339Chars ↔ a.parts < b.parts := by
  have hyears : (a.date.year.natAbs < b.date.year.natAbs ↔ a.date.year < b.date.year) ∧
      (a.date.year.natAbs = b.date.year.natAbs ↔ a.date.year = b.date.year) := by
    have haPos := ha.1
    have hbPos := hb.1
    omega
  obtain ⟨haMonth, haDay⟩ := a.date_lt
  obtain ⟨hbMonth, hbDay⟩ := b.date_lt
  obtain ⟨haHour, haMinute, haSecond, haMilli⟩ := a.clock_lt
  obtain ⟨hbHour, hbMinute, hbSecond, hbMilli⟩ := b.clock_lt
  rw [rfc3339Chars_eq ha, rfc3339Chars_eq hb, padded_append_lt_iff (year_lt ha) (year_lt hb)]
  simp only [List.cons_lt_cons_self, padded_append_lt_iff haMonth hbMonth,
    padded_append_lt_iff haDay hbDay, padded_append_lt_iff haHour hbHour,
    padded_append_lt_iff haMinute hbMinute, padded_append_lt_iff haSecond hbSecond,
    padded_append_lt_iff haMilli hbMilli, List.lt_irrefl, and_false, or_false, hyears.1,
    hyears.2]
  -- both sides compare part by part; they differ in how the parts are grouped
  simp only [parts, Date.key, Prod.Lex.toLex_lt_toLex, EmbeddingLike.apply_eq_iff_eq,
    Prod.mk.injEq, and_or_left, or_assoc, and_assoc]

/-- Texts hold digits and marks. -/
theorem ascii_rfc3339Chars (h : t.FourDigitYear) : Ascii t.rfc3339Chars := by
  rw [rfc3339Chars_eq h]
  simp

/-- **The order of texts** is the order of milliseconds. -/
theorem rfc3339_lt_iff (ha : a.FourDigitYear) (hb : b.FourDigitYear) :
    utf8 a.rfc3339 < utf8 b.rfc3339 ↔ a.millis < b.millis := by
  rw [rfc3339, rfc3339, utf8_lt_utf8_iff (ascii_rfc3339Chars ha) (ascii_rfc3339Chars hb),
    rfc3339Chars_lt_iff ha hb, parts_lt_iff]

theorem le_iff :
    a.le b = true ↔ a.seconds < b.seconds ∨ a.seconds = b.seconds ∧ a.nanos ≤ b.nanos := by
  simp [le]

theorem millis_le_of_le (h : a.le b = true) : a.millis ≤ b.millis := by
  rcases le_iff.1 h with hlt | ⟨heq, hle⟩
  · exact Prod.Lex.toLex_le_toLex.2 (.inl hlt)
  · exact Prod.Lex.toLex_le_toLex.2 (.inr ⟨heq, Nat.div_le_div_right hle⟩)

theorem rfc3339_le (ha : a.FourDigitYear) (hb : b.FourDigitYear) (h : a.le b = true) :
    utf8 a.rfc3339 ≤ utf8 b.rfc3339 := by
  have hnot : ¬ utf8 b.rfc3339 < utf8 a.rfc3339 := by
    rw [rfc3339_lt_iff hb ha]
    exact (millis_le_of_le h).not_gt
  exact hnot

/-- Texts are equal for instants of one millisecond only. -/
theorem rfc3339_eq_iff (ha : a.FourDigitYear) (hb : b.FourDigitYear) :
    a.rfc3339 = b.rfc3339 ↔ a.millis = b.millis := by
  constructor
  · intro h
    have hlt : ¬ a.millis < b.millis := by
      rw [← rfc3339_lt_iff ha hb, h]
      exact List.lt_irrefl _
    have hgt : ¬ b.millis < a.millis := by
      rw [← rfc3339_lt_iff hb ha, h]
      exact List.lt_irrefl _
    exact le_antisymm (not_lt.1 hgt) (not_lt.1 hlt)
  · intro h
    have hparts := parts_eq_of_millis h
    simp only [parts, Date.key, EmbeddingLike.apply_eq_iff_eq, Prod.mk.injEq] at hparts
    obtain ⟨⟨hyear, hmonth, hday⟩, hhour, hminute, hsecond, hmilli⟩ := hparts
    rw [rfc3339, rfc3339, rfc3339Chars_eq ha, rfc3339Chars_eq hb, hyear, hmonth, hday, hhour,
      hminute, hsecond, hmilli]

end Instant

/-! ## Windows -/

/-- The bounds of the range that is written for a window. -/
def windowBounds (start stop : Instant) : Object :=
  [("gte", .str start.rfc3339), ("lte", .str stop.rfc3339)]

theorem timeWindow_eq_ok_iff {start stop : Instant} {field context : String} {v : Value} :
    timeWindow start stop field context = .ok v ↔
      start.le stop = true ∧ v = .obj (windowBounds start stop) := by
  constructor
  · intro h
    obtain ⟨_, hle, h⟩ := Checked.bind_eq_ok_iff.1 h
    exact ⟨require_eq_ok_iff.1 hle, (Except.ok.inj h).symm⟩
  · rintro ⟨hle, rfl⟩
    exact Checked.bind_eq_ok_iff.2 ⟨(), require_eq_ok_iff.2 hle, rfl⟩

/-- The field and the ends of the window that a call asks for. -/
def Call.window? : Call → Option (String × Instant × Instant)
  | .log (.timeRange start stop) => some ("@timestamp", start, stop)
  | .report (.dateRange field start stop) => some (field, start, stop)
  | .article (.publishedBetween start stop) => some ("published_at", start, stop)
  | _ => none

/-- A call for a window stands for one range over its field. -/
theorem Call.steps_of_window? {call : Call} {field : String} {start stop : Instant}
    (h : call.window? = some (field, start, stop)) :
    ∃ context, call.steps = (timeWindow start stop field context >>= fun v =>
      .ok [.clause (.range field v)]) := by
  cases call with
  | log call =>
    cases call with
    | timeRange =>
      cases h
      exact ⟨"time_range", rfl⟩
    | _ => cases h
  | report call =>
    cases call with
    | dateRange =>
      cases h
      exact ⟨"date_range", rfl⟩
    | _ => cases h
  | article call =>
    cases call with
    | publishedBetween =>
      cases h
      exact ⟨"published_between", rfl⟩
    | _ => cases h
  | _ => cases h

/-- A call for a window that is not rejected adds the range of the window to `filter`. -/
theorem Builder.perform_window {b : Builder} {call : Call} {field : String} {start stop : Instant}
    (h : call.window? = some (field, start, stop)) (hdone : (b.perform call).2 = none) :
    start.le stop = true ∧ ∃ d, b.perform call = ({ b with document := d }, none) ∧
      b.document.Gains .filter [.range field (windowBounds start stop)] d := by
  obtain ⟨context, hsteps⟩ := Call.steps_of_window? h
  rcases hwindow : timeWindow start stop field context with r | v
  · rw [perform_eq, hsteps, hwindow] at hdone
    cases hdone
  · obtain ⟨hle, rfl⟩ := timeWindow_eq_ok_iff.1 hwindow
    have hcall : b.perform call =
        b.perform (.step (.clause (.range field (.obj (windowBounds start stop))))) := by
      rw [perform_eq, hsteps, hwindow]
      rfl
    rw [hcall] at hdone ⊢
    obtain ⟨s, c, hcheck⟩ := check_of_perform_clause hdone
    obtain ⟨rfl, hc⟩ := ClauseCall.target_clause_of_check hcheck
    cases hc
    exact ⟨hle, perform_append (Step.edit_eq_ok_iff.2 (.clause hcheck))⟩

/-- **Times are in the order of their texts**, in years of four digits, and one text stands for one
millisecond. So a window that is accepted holds the texts of its two ends, in order, and a call for
a window adds the range with these texts to `filter`. -/
theorem Instant.rfc3339_ordered {start stop : Instant} (hstart : start.FourDigitYear)
    (hstop : stop.FourDigitYear) :
    (start.le stop = true → utf8 start.rfc3339 ≤ utf8 stop.rfc3339) ∧
      (start.rfc3339 = stop.rfc3339 ↔
        start.seconds = stop.seconds ∧
          start.nanos / nanosPerMilli = stop.nanos / nanosPerMilli) ∧
      (∀ field context v, timeWindow start stop field context = .ok v →
        v = .obj [("gte", .str start.rfc3339), ("lte", .str stop.rfc3339)] ∧
          utf8 start.rfc3339 ≤ utf8 stop.rfc3339) ∧
      ∀ (b : Builder) (call : Call) (field : String), call.window? = some (field, start, stop) →
        (b.perform call).2 = none →
          utf8 start.rfc3339 ≤ utf8 stop.rfc3339 ∧
            ∃ d, b.perform call = ({ b with document := d }, none) ∧
              b.document.Gains .filter
                [.range field [("gte", .str start.rfc3339), ("lte", .str stop.rfc3339)]] d := by
  refine ⟨rfc3339_le hstart hstop, ?_, ?_, ?_⟩
  · rw [rfc3339_eq_iff hstart hstop, millis, millis, EmbeddingLike.apply_eq_iff_eq, Prod.mk.injEq]
  · intro field context v h
    obtain ⟨hle, rfl⟩ := timeWindow_eq_ok_iff.1 h
    exact ⟨rfl, rfc3339_le hstart hstop hle⟩
  · intro b call field hcall hdone
    obtain ⟨hle, d, hd, hgains⟩ := Builder.perform_window hcall hdone
    exact ⟨rfc3339_le hstart hstop hle, d, hd, hgains⟩

/-- Half a leap second, and the start of the year after it. -/
theorem Instant.rfc3339_ordered_of_leap :
    let leap : Instant := ⟨1483228799, 1500000000, by decide⟩
    let newYear : Instant := ⟨1483228800, 999999, by decide⟩
    let call : Call := .report (.dateRange "sold" leap newYear)
    leap.FourDigitYear ∧ newYear.FourDigitYear ∧ leap.le newYear = true ∧
      utf8 "2016-12-31T23:59:60.500Z" ≤ utf8 "2017-01-01T00:00:00.000Z" ∧
      ∃ d, (Builder.start {}).perform call = ({ config := {}, document := d }, none) ∧
        Document.fresh.Gains .filter
          [.range "sold" [("gte", .str "2016-12-31T23:59:60.500Z"),
            ("lte", .str "2017-01-01T00:00:00.000Z")]] d := by
  intro leap newYear call
  have hleap : leap.FourDigitYear := by decide
  have hnewYear : newYear.FourDigitYear := by decide
  have hgte : leap.rfc3339 = "2016-12-31T23:59:60.500Z" := by decide
  have hlte : newYear.rfc3339 = "2017-01-01T00:00:00.000Z" := by decide
  obtain ⟨-, -, -, hwindow⟩ := rfc3339_ordered hleap hnewYear
  rw [hgte, hlte] at hwindow
  exact ⟨hleap, hnewYear, rfl, hwindow (Builder.start {}) call "sold" rfl rfl⟩

end SearchRequest

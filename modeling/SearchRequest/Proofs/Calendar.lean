import Mathlib.Algebra.Order.Group.Int
import Mathlib.Data.Prod.Lex
import Mathlib.Order.Monotone.Basic
import Mathlib.Tactic.IntervalCases
import SearchRequest.Time.Instant

/-!
# The Gregorian calendar

`Date.ofDays` finds the date of a day by divisions, from the eras of four hundred years down to the
months. Here the calendar is given by its rules, and the divisions are shown to follow them.

* `Date.daysInMonth`, `Date.next` — the lengths of the months, and with them the date after a date.
* `Date.number` — the number of the day of a date, as the sum of the years, months and days before.

The main statement is `Date.ofDays_succ`: the date of the next day is the next date. Together with
the date of one day it says all that there is to say about `ofDays`. That dates come in the order
of their days (`Date.key_ofDays_lt`), that they are in the calendar (`Date.valid_ofDays`)
and that `number` counts them (`Date.number_ofDays`) follows without another look at the divisions.
-/

namespace SearchRequest.Date

/-! ## The rules -/

/-- Every fourth year, but of the full centuries only every fourth one. -/
def isLeapYear (year : Int) : Bool := year % 4 == 0 && (year % 100 != 0 || year % 400 == 0)

/-- The days of a month. -/
def daysInMonth (year : Int) : Nat → Nat
  | 2 => if isLeapYear year then 29 else 28
  | 4 | 6 | 9 | 11 => 30
  | _ => 31

/-- The date of the day after. -/
def next (d : Date) : Date :=
  if d.day < daysInMonth d.year d.month then { d with day := d.day + 1 }
  else if d.month < 12 then { d with month := d.month + 1, day := 1 }
  else { year := d.year + 1, month := 1, day := 1 }

/-- The date is in the calendar. -/
structure Valid (d : Date) : Prop where
  month_pos : 1 ≤ d.month
  month_le : d.month ≤ 12
  day_pos : 1 ≤ d.day
  day_le : d.day ≤ daysInMonth d.year d.month

instance (d : Date) : Decidable d.Valid :=
  decidable_of_iff
    (1 ≤ d.month ∧ d.month ≤ 12 ∧ 1 ≤ d.day ∧ d.day ≤ daysInMonth d.year d.month)
    ⟨fun ⟨hm, hm', hd, hd'⟩ => ⟨hm, hm', hd, hd'⟩, fun ⟨hm, hm', hd, hd'⟩ => ⟨hm, hm', hd, hd'⟩⟩

/-- Dates in their order: by years, then by months, then by days. -/
def key (d : Date) : Int ×ₗ Nat ×ₗ Nat := toLex (d.year, toLex (d.month, d.day))

theorem daysInMonth_pos (year : Int) (month : Nat) : 0 < daysInMonth year month := by
  unfold daysInMonth
  split
  · split <;> decide
  all_goals decide

theorem daysInMonth_le (year : Int) (month : Nat) : daysInMonth year month ≤ 31 := by
  unfold daysInMonth
  split
  · split <;> decide
  all_goals decide

theorem valid_next {d : Date} (hpos : 1 ≤ d.month) (hle : d.month ≤ 12) : d.next.Valid := by
  unfold next
  split
  · next hday => exact ⟨hpos, hle, Nat.le_add_left 1 _, hday⟩
  · split
    · next hmonth => exact ⟨Nat.le_add_left 1 _, hmonth, le_rfl, daysInMonth_pos _ _⟩
    · exact ⟨le_rfl, Nat.le_add_left 1 11, le_rfl, daysInMonth_pos _ _⟩

/-- The next date comes later. -/
theorem key_lt_next (d : Date) : d.key < d.next.key := by
  unfold next
  split
  · simp [key, Prod.Lex.toLex_lt_toLex]
  · split
    · simp [key, Prod.Lex.toLex_lt_toLex]
    · simp [key, Prod.Lex.toLex_lt_toLex]

/-! ## Years that begin in March -/

/-- The number of days from the first of March of year 0 to that of another year. -/
def marchDays (year : Int) : Int := 365 * year + year / 4 - year / 100 + year / 400

/-- The days of a year that begins in March. Its last month is the February of the next year. -/
def marchYearLength (year : Int) : Int := if isLeapYear (year + 1) then 366 else 365

/-- The date of a day of a year that begins in March. -/
def ofMarchYear (year dayOfYear : Int) : Date :=
  let monthFromMarch := (5 * dayOfYear + 2) / 153
  let day := dayOfYear - (153 * monthFromMarch + 2) / 5 + 1
  let month := if monthFromMarch < 10 then monthFromMarch + 3 else monthFromMarch - 9
  { year := year + if month ≤ 2 then 1 else 0
    month := month.toNat
    day := day.toNat }

theorem marchYearLength_cases (year : Int) :
    (isLeapYear (year + 1) = true ∧ marchYearLength year = 366) ∨
      (isLeapYear (year + 1) = false ∧ marchYearLength year = 365) := by
  unfold marchYearLength
  cases isLeapYear (year + 1) <;> simp

theorem marchDays_succ (year : Int) :
    marchDays (year + 1) = marchDays year + marchYearLength year := by
  rcases marchYearLength_cases year with ⟨hleap, hlength⟩ | ⟨hleap, hlength⟩
  · simp only [isLeapYear, Bool.and_eq_true, Bool.or_eq_true, beq_iff_eq, bne_iff_ne] at hleap
    simp only [marchDays]
    omega
  · simp only [isLeapYear, Bool.and_eq_false_iff, Bool.or_eq_false_iff, beq_eq_false_iff_ne,
      bne_eq_false_iff_eq] at hleap
    simp only [marchDays]
    omega

/-- Every day falls into a year. -/
theorem exists_marchDays (n : Int) :
    ∃ year day, 0 ≤ day ∧ day < marchYearLength year ∧ n = marchDays year + day := by
  induction n using Int.induction_on with
  | zero => exact ⟨0, 0, le_rfl, by decide, rfl⟩
  | succ n ih =>
    obtain ⟨year, day, hpos, hlt, hn⟩ := ih
    by_cases hlast : day + 1 < marchYearLength year
    · exact ⟨year, day + 1, by omega, hlast, by omega⟩
    · refine ⟨year + 1, 0, le_rfl, ?_, ?_⟩
      · rcases marchYearLength_cases (year + 1) with h | h <;> omega
      · rw [marchDays_succ]
        omega
  | pred n ih =>
    obtain ⟨year, day, hpos, hlt, hn⟩ := ih
    by_cases hfirst : 0 < day
    · exact ⟨year, day - 1, by omega, by omega, by omega⟩
    · have hprevious := marchDays_succ (year - 1)
      rw [Int.sub_add_cancel] at hprevious
      refine ⟨year - 1, marchYearLength (year - 1) - 1, ?_, by omega, by omega⟩
      rcases marchYearLength_cases (year - 1) with h | h <;> omega

/-! ## The divisions -/

/-- Later days of an era are not in earlier years. -/
theorem yearOfEra_mono {m n : Int} (h : m ≤ n) : yearOfEra m ≤ yearOfEra n := by
  refine @monotone_int_of_le_succ Int _ yearOfEra (fun k => ?_) m n h
  have hdays : k - k / 1460 + k / 36524 - k / 146096 ≤
      (k + 1) - (k + 1) / 1460 + (k + 1) / 36524 - (k + 1) / 146096 := by
    omega
  exact Int.ediv_le_ediv (by decide) hdays

/-- The first and the last day of each year of an era. -/
theorem yearOfEra_ends : ∀ y < 400, yearOfEra (firstDayOfYear (Int.ofNat y)) = y ∧
    yearOfEra (firstDayOfYear (Int.ofNat y) + marchYearLength y - 1) = y := by
  decide +kernel

theorem yearOfEra_eq {year day : Int} (hyear : 0 ≤ year) (hera : year < 400) (hday : 0 ≤ day)
    (hlt : day < marchYearLength year) : yearOfEra (firstDayOfYear year + day) = year := by
  obtain ⟨y, rfl⟩ := Int.eq_ofNat_of_zero_le hyear
  obtain ⟨hfirst, hlast⟩ := yearOfEra_ends y (by omega)
  rw [Int.ofNat_eq_natCast] at hfirst hlast
  have hlow := yearOfEra_mono (show firstDayOfYear y ≤ firstDayOfYear y + day by omega)
  have hhigh := yearOfEra_mono
    (show firstDayOfYear y + day ≤ firstDayOfYear y + marchYearLength y - 1 by omega)
  rw [hfirst] at hlow
  rw [hlast] at hhigh
  exact le_antisymm hhigh hlow

/-- The date of a day, from the year that it falls into. -/
theorem ofDays_marchDays {year day : Int} (hday : 0 ≤ day) (hlt : day < marchYearLength year) :
    ofDays (marchDays year + day - 719468) = ofMarchYear year day := by
  have hlength : marchYearLength (year % 400) = marchYearLength year := by
    have hfour : (year % 400 + 1) % 4 = (year + 1) % 4 := by omega
    have hcentury : (year % 400 + 1) % 100 = (year + 1) % 100 := by omega
    have hera : (year % 400 + 1) % 400 = (year + 1) % 400 := by omega
    rw [marchYearLength, marchYearLength, isLeapYear, isLeapYear, hfour, hcentury, hera]
  have hyear : yearOfEra (firstDayOfYear (year % 400) + day) = year % 400 :=
    yearOfEra_eq (by omega) (by omega) hday (by omega)
  have hsplit : marchDays year + day - 719468 + 719468 =
      firstDayOfYear (year % 400) + day + daysPerEra * (year / 400) := by
    simp only [marchDays, firstDayOfYear, daysPerEra]
    omega
  have hbounds : 0 ≤ firstDayOfYear (year % 400) + day ∧
      firstDayOfYear (year % 400) + day < daysPerEra := by
    have hnext := marchDays_succ (year % 400)
    rw [hlength] at hnext
    simp only [marchDays] at hnext
    simp only [firstDayOfYear, daysPerEra]
    omega
  have hera : (firstDayOfYear (year % 400) + day + daysPerEra * (year / 400)) / daysPerEra =
      year / 400 := by
    rw [Int.add_mul_ediv_left _ _ (by decide), Int.ediv_eq_zero_of_lt hbounds.1 hbounds.2,
      Int.zero_add]
  have hdayOfEra : (firstDayOfYear (year % 400) + day + daysPerEra * (year / 400)) % daysPerEra =
      firstDayOfYear (year % 400) + day := by
    rw [Int.add_mul_emod_self_left, Int.emod_eq_of_lt hbounds.1 hbounds.2]
  have hwhole : year % 400 + year / 400 * 400 = year := by omega
  simp only [ofDays, hsplit, hera, hdayOfEra, hyear, hwhole, add_sub_cancel_left]
  rfl

/-! ## Months from March -/

/-- The days from the first of March to the first of a month. -/
def monthStart (m : Int) : Int := (153 * m + 2) / 5

/-- The days of a month of a year that begins in March. -/
def marchMonthLength (year m : Int) : Int :=
  if m = 11 then marchYearLength year - monthStart 11 else monthStart (m + 1) - monthStart m

/-- The first of a month is in the next year from January on. -/
def firstOfMonth (year m : Int) : Date :=
  { year := year + if m < 10 then 0 else 1
    month := (if m < 10 then m + 3 else m - 9).toNat
    day := 1 }

theorem daysInMonth_firstOfMonth {year m : Int} (hm : 0 ≤ m) (hle : m ≤ 11) :
    daysInMonth (firstOfMonth year m).year (firstOfMonth year m).month =
      marchMonthLength year m := by
  rcases marchYearLength_cases year with ⟨hleap, hlength⟩ | ⟨hleap, hlength⟩
  · interval_cases m <;>
      simp [firstOfMonth, marchMonthLength, monthStart, daysInMonth, hleap, hlength]
  · interval_cases m <;>
      simp [firstOfMonth, marchMonthLength, monthStart, daysInMonth, hleap, hlength]

/-- December is followed by a January of the next year. -/
theorem firstOfMonth_succ {year m : Int} (hm : 0 ≤ m) (hle : m + 1 ≤ 11) :
    firstOfMonth year (m + 1) =
      if (firstOfMonth year m).month < 12 then
        { firstOfMonth year m with month := (firstOfMonth year m).month + 1, day := 1 }
      else { year := (firstOfMonth year m).year + 1, month := 1, day := 1 } := by
  have hlast : m ≤ 10 := by omega
  interval_cases m <;> simp [firstOfMonth]

/-- Every day of a year falls into a month. -/
theorem exists_monthStart {year day : Int} (hday : 0 ≤ day) (hlt : day < marchYearLength year) :
    ∃ m k, 0 ≤ m ∧ m ≤ 11 ∧ 0 ≤ k ∧ k < marchMonthLength year m ∧ day = monthStart m + k := by
  refine ⟨(5 * day + 2) / 153, day - monthStart ((5 * day + 2) / 153), ?_⟩
  simp only [marchMonthLength, monthStart]
  rcases marchYearLength_cases year with ⟨-, hlength⟩ | ⟨-, hlength⟩
  · split <;> omega
  · split <;> omega

theorem ofMarchYear_monthStart {year m k : Int} (hm : 0 ≤ m) (hle : m ≤ 11) (hk : 0 ≤ k)
    (hlt : k < marchMonthLength year m) :
    ofMarchYear year (monthStart m + k) = { firstOfMonth year m with day := k.toNat + 1 } := by
  have hmonth : (5 * (monthStart m + k) + 2) / 153 = m := by
    simp only [marchMonthLength, monthStart] at hlt ⊢
    rcases marchYearLength_cases year with ⟨-, hlength⟩ | ⟨-, hlength⟩
    · split at hlt <;> omega
    · split at hlt <;> omega
  have hday : (monthStart m + k - (153 * m + 2) / 5 + 1).toNat = k.toNat + 1 := by
    simp only [monthStart]
    omega
  simp only [ofMarchYear, firstOfMonth, hmonth, hday, Date.mk.injEq, and_true]
  split <;> split <;> omega

/-! ## The next day -/

theorem ofMarchYear_succ {year day : Int} (hday : 0 ≤ day) (hlt : day + 1 < marchYearLength year) :
    ofMarchYear year (day + 1) = (ofMarchYear year day).next := by
  have hlt' : day < marchYearLength year := by omega
  obtain ⟨m, k, hm, hle, hk, hklt, rfl⟩ := exists_monthStart hday hlt'
  have hlength := @daysInMonth_firstOfMonth year m hm hle
  rw [ofMarchYear_monthStart hm hle hk hklt, next]
  by_cases hlast : k + 1 < marchMonthLength year m
  · rw [if_pos (by simp only; omega), add_assoc, ofMarchYear_monthStart hm hle (by omega) hlast]
    simp only [Date.mk.injEq, true_and]
    omega
  · -- no month but the last one ends with the year
    have hm' : m + 1 ≤ 11 := by
      by_contra hm'
      obtain rfl : m = 11 := by omega
      simp only [marchMonthLength, if_true] at hlast
      omega
    have hstart : monthStart m + k + 1 = monthStart (m + 1) + 0 := by
      simp only [marchMonthLength, if_neg (show ¬ m = 11 by omega)] at hlast hklt
      omega
    have hpos : 0 < marchMonthLength year (m + 1) := by
      rw [← daysInMonth_firstOfMonth (by omega) hm']
      exact Int.natCast_pos.2 (daysInMonth_pos _ _)
    rw [if_neg (by simp only; omega), hstart, ofMarchYear_monthStart (by omega) hm' le_rfl hpos]
    exact firstOfMonth_succ hm hm'

theorem ofMarchYear_last (year : Int) :
    ofMarchYear (year + 1) 0 = (ofMarchYear year (marchYearLength year - 1)).next := by
  rcases marchYearLength_cases year with ⟨hleap, hlength⟩ | ⟨hleap, hlength⟩
  · rw [hlength]
    simp [ofMarchYear, next, daysInMonth, hleap]
  · rw [hlength]
    simp [ofMarchYear, next, daysInMonth, hleap]

/-- **The next day** has the next date. -/
theorem ofDays_succ (n : Int) : ofDays (n + 1) = (ofDays n).next := by
  obtain ⟨year, day, hpos, hlt, hn⟩ := exists_marchDays (n + 719468)
  obtain rfl : n = marchDays year + day - 719468 := by omega
  rw [ofDays_marchDays hpos hlt]
  by_cases hlast : day + 1 < marchYearLength year
  · rw [← ofMarchYear_succ hpos hlast, ← ofDays_marchDays (by omega) hlast]
    congr 1
    omega
  · obtain rfl : day = marchYearLength year - 1 := by omega
    have hfirst : 0 < marchYearLength (year + 1) := by
      rcases marchYearLength_cases (year + 1) with h | h <;> omega
    rw [← ofMarchYear_last, ← ofDays_marchDays le_rfl hfirst, marchDays_succ]
    congr 1
    omega

/-- Days are counted from the start of 1970. -/
example : ofDays 0 = ⟨1970, 1, 1⟩ := rfl

/-! ## All days -/

/-- **The order of dates** is the order of days. -/
theorem key_ofDays_lt {m n : Int} (h : m < n) : (ofDays m).key < (ofDays n).key := by
  refine @strictMono_int_of_lt_succ _ _ (fun n => (ofDays n).key) (fun n => ?_) m n h
  rw [ofDays_succ]
  exact key_lt_next _

theorem month_ofDays (n : Int) : 1 ≤ (ofDays n).month ∧ (ofDays n).month ≤ 12 := by
  obtain ⟨year, day, hpos, hlt, hn⟩ := exists_marchDays (n + 719468)
  obtain rfl : n = marchDays year + day - 719468 := by omega
  obtain ⟨m, k, hm, hle, hk, hklt, rfl⟩ := exists_monthStart hpos hlt
  rw [ofDays_marchDays hpos hlt, ofMarchYear_monthStart hm hle hk hklt]
  simp only [firstOfMonth]
  split <;> omega

/-- **Every date** is in the calendar. -/
theorem valid_ofDays (n : Int) : (ofDays n).Valid := by
  obtain ⟨hpos, hle⟩ := month_ofDays (n - 1)
  rw [← Int.sub_add_cancel n 1, ofDays_succ]
  exact valid_next hpos hle

/-! ## Numbers of days -/

/-- The days of the months before a month. -/
def daysBeforeMonth (year : Int) (month : Nat) : Nat :=
  ((List.range (month - 1)).map fun m => daysInMonth year (m + 1)).sum

/-- The days from the start of the year 1 to the start of another year. -/
def daysBeforeYear (year : Int) : Int :=
  365 * (year - 1) + (year - 1) / 4 - (year - 1) / 100 + (year - 1) / 400

/-- The number of the day of a date, counted from the first day of 1970. -/
def number (d : Date) : Int :=
  daysBeforeYear d.year + daysBeforeMonth d.year d.month + (d.day - 1) - daysBeforeYear 1970

theorem daysBeforeMonth_succ (year : Int) {month : Nat} (h : 1 ≤ month) :
    daysBeforeMonth year (month + 1) = daysBeforeMonth year month + daysInMonth year month := by
  obtain ⟨m, rfl⟩ := Nat.exists_eq_add_of_le' h
  simp [daysBeforeMonth, List.range_succ]

/-- A year has as many days as its twelve months. -/
theorem daysBeforeYear_succ (year : Int) :
    daysBeforeYear (year + 1) = daysBeforeYear year + daysBeforeMonth year 13 := by
  cases hleap : isLeapYear year with
  | true =>
    have hmonths : daysBeforeMonth year 13 = 366 := by
      simp [daysBeforeMonth, List.range_succ, daysInMonth, hleap]
    simp only [isLeapYear, Bool.and_eq_true, Bool.or_eq_true, beq_iff_eq, bne_iff_ne] at hleap
    simp only [daysBeforeYear, hmonths]
    omega
  | false =>
    have hmonths : daysBeforeMonth year 13 = 365 := by
      simp [daysBeforeMonth, List.range_succ, daysInMonth, hleap]
    simp only [isLeapYear, Bool.and_eq_false_iff, Bool.or_eq_false_iff, beq_eq_false_iff_ne,
      bne_eq_false_iff_eq] at hleap
    simp only [daysBeforeYear, hmonths]
    omega

theorem number_next {d : Date} (h : d.Valid) : d.next.number = d.number + 1 := by
  unfold next
  split
  · simp only [number]
    omega
  · next hday =>
    have hlast : d.day = daysInMonth d.year d.month := le_antisymm h.day_le (Nat.le_of_not_lt hday)
    split
    · simp only [number, daysBeforeMonth_succ d.year h.month_pos]
      omega
    · next hmonth =>
      have hdecember : d.month = 12 := le_antisymm h.month_le (Nat.le_of_not_lt hmonth)
      have hyear := daysBeforeYear_succ d.year
      have hmonths : daysBeforeMonth d.year 13 =
          daysBeforeMonth d.year 12 + daysInMonth d.year 12 :=
        daysBeforeMonth_succ d.year (by decide)
      have hjanuary : daysBeforeMonth (d.year + 1) 1 = 0 := rfl
      rw [hdecember] at hlast
      simp only [number, hjanuary, hdecember]
      omega

/-- **The number of a day** is counted from its date. -/
theorem number_ofDays (n : Int) : (ofDays n).number = n := by
  induction n using Int.induction_on with
  | zero => rfl
  | succ n ih => rw [ofDays_succ, number_next (valid_ofDays _), ih]
  | pred n ih =>
    have hnext := number_next (valid_ofDays (-n - 1))
    rw [← ofDays_succ, Int.sub_add_cancel, ih] at hnext
    omega

end SearchRequest.Date

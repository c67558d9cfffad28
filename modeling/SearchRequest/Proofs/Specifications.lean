import SearchRequest.Proofs.Run

/-!
# What calls for aggregations attach

What a call for an aggregation attaches can be read off its arguments, without a look at the checks:
`AggregationCall.target` is the name, and `AggregationCall.spec` the specification. Both are the
arguments themselves, but for the interval of a date histogram: it is trimmed, and the key that it
stands under says whether it is one unit of the calendar.

A call that passes attaches just that (`AggregationCall.check_eq`).
-/

namespace SearchRequest

/-! ## Calendar units -/

/-- The units of the calendar, with their short forms. -/
def calendarUnits : List (String × String) :=
  [("second", "1s"), ("minute", "1m"), ("hour", "1h"), ("day", "1d"), ("week", "1w"),
   ("month", "1M"), ("quarter", "1q"), ("year", "1y")]

/-- The interval is one unit of the calendar, in either form. -/
def IsCalendarUnit (interval : String) : Prop :=
  ∃ unit ∈ calendarUnits, interval = unit.1 ∨ interval = unit.2

instance (interval : String) : Decidable (IsCalendarUnit interval) :=
  inferInstanceAs (Decidable (∃ unit ∈ calendarUnits, interval = unit.1 ∨ interval = unit.2))

theorem contains_calendarIntervals_iff {interval : String} :
    calendarIntervals.contains interval = true ↔ IsCalendarUnit interval := by
  simp only [calendarIntervals, IsCalendarUnit, calendarUnits, List.contains_iff_mem, List.mem_cons,
    List.not_mem_nil, or_false, exists_eq_or_imp, exists_eq_left]
  grind

/-! ## Names and specifications -/

namespace AggregationCall

/-- The name that a call attaches an aggregation under. -/
def target : AggregationCall → String
  | general name _ => name
  | terms name _ _ => name
  | dateHistogram name _ _ => name
  | histogram name _ _ => name
  | range name _ _ => name
  | filters name _ => name
  | nested name _ _ => name
  | metric _ name _ => name
  | percentiles name _ _ => name

/-- The specification that carries the arguments of a call. -/
def spec : AggregationCall → Value
  | general _ spec => spec
  | terms _ field size => .single "terms" (.obj [("field", .str field), ("size", .int size)])
  | dateHistogram _ field interval =>
    let key := if IsCalendarUnit (trimmed interval) then "calendar_interval" else "fixed_interval"
    .single "date_histogram" (.obj [("field", .str field), (key, .str (trimmed interval))])
  | histogram _ field interval =>
    .single "histogram" (.obj [("field", .str field), ("interval", .int interval)])
  | range _ field ranges => .single "range" (.obj [("field", .str field), ("ranges", .arr ranges)])
  | filters _ clauses => .single "filters" (.single "filters" (.obj clauses))
  | nested _ path aggs => .obj [("nested", .single "path" (.str path)), ("aggs", .obj aggs)]
  | metric m _ field => m.spec field
  | percentiles _ field none => .single "percentiles" (.single "field" (.str field))
  | percentiles _ field (some percents) =>
    .single "percentiles"
      (.obj [("field", .str field), ("percents", .arr (percents.map .float))])

/-- Percentages are finite numbers. -/
theorem isFinite_of_percentages {percents : List Double} {context : String} {u : Unit}
    (h : percentages percents context = .ok u) : ∀ x ∈ percents, x.isFinite = true := by
  obtain ⟨_, -, h⟩ := Checked.bind_eq_ok_iff.1 h
  intro x hx
  split at h
  · cases h
  · rename_i hfind
    have hin : x.within .zero (.ofInt 100) = true := by
      simpa [isPercentage] using List.find?_eq_none.1 hfind x hx
    exact Double.isFinite_of_within (by decide) (by decide) hin

/-- Finite numbers are written as numbers, every one. -/
theorem map_ofDouble {xs : List Double} (h : ∀ x ∈ xs, x.isFinite = true) :
    xs.map Value.ofDouble = xs.map .float := by
  refine List.map_congr_left fun x hx => ?_
  rw [Value.ofDouble, if_pos (h x hx)]

/-- **What passes is what was given**: the name and the specification of a call whose arguments have
passed. -/
theorem check_eq {call : AggregationCall} {r : String × Value} (h : call.check = .ok r) :
    r = (call.target, call.spec) := by
  have hattach {name : String} {spec : Value} (h : attach name spec = .ok r) : r = (name, spec) :=
    (attach_eq_ok_iff.1 h).2
  cases call with
  | general => exact hattach h
  | terms | histogram =>
    obtain ⟨_, -, h⟩ := Checked.bind_eq_ok_iff.1 h
    obtain ⟨n, hn, hok⟩ := Checked.bind_eq_ok_iff.1 h
    obtain ⟨rfl, -⟩ := Argument.positive_eq_ok_iff.1 hn
    exact hattach hok
  | dateHistogram name field interval =>
    obtain ⟨_, -, h⟩ := Checked.bind_eq_ok_iff.1 h
    obtain ⟨_, -, h⟩ := Checked.bind_eq_ok_iff.1 h
    simp only [target, spec, ← contains_calendarIntervals_iff]
    exact hattach h
  | range | filters =>
    obtain ⟨_, -, h⟩ := Checked.bind_eq_ok_iff.1 h
    obtain ⟨_, -, h⟩ := Checked.bind_eq_ok_iff.1 h
    exact hattach h
  | nested =>
    obtain ⟨_, -, h⟩ := Checked.bind_eq_ok_iff.1 h
    exact hattach h
  | metric m name field =>
    rw [check_metric] at h
    obtain ⟨_, -, h⟩ := Checked.bind_eq_ok_iff.1 h
    exact (Except.ok.inj h).symm
  | percentiles name field percents =>
    obtain ⟨_, -, h⟩ := Checked.bind_eq_ok_iff.1 h
    rcases percents with _ | percents
    · exact hattach h
    · obtain ⟨_, hpercents, h⟩ := Checked.bind_eq_ok_iff.1 h
      rw [target, spec, ← map_ofDouble (isFinite_of_percentages hpercents)]
      exact hattach h

end AggregationCall

end SearchRequest

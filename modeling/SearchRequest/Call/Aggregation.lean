import SearchRequest.Argument.Basic

/-!
# Calls that attach an aggregation

`AggregationCall` lists the calls that attach a named aggregation to the document; most of them
write the specification from a few arguments. `AggregationCall.check` tells what comes of such a
call: the name and the specification, or the first argument that is refused.

Except for the plain metrics, the helpers check their arguments and then attach what they wrote in
the same way as the general call, with its two checks.
-/

namespace SearchRequest

/-- The metrics over one field. -/
inductive Metric where
  | avg
  | sum
  | min
  | max
  | cardinality
  | valueCount
  | stats
deriving DecidableEq, Repr

namespace Metric

/-- The metrics in their order. -/
def all : List Metric := [avg, sum, min, max, cardinality, valueCount, stats]

/-- The kind of aggregation that computes a metric. -/
def kind : Metric → String
  | avg => "avg"
  | sum => "sum"
  | min => "min"
  | max => "max"
  | cardinality => "cardinality"
  | valueCount => "value_count"
  | stats => "stats"

/-- The metric of the given kind. -/
def ofKind? (kind : String) : Option Metric := all.find? fun m => m.kind == kind

/-- The specification of a metric over a field. -/
def spec (m : Metric) (field : String) : Value := .single m.kind (.single "field" (.str field))

end Metric

/-- The intervals that count calendar units, in long and in short form. -/
def calendarIntervals : List String :=
  ["minute", "1m", "hour", "1h", "day", "1d", "week", "1w", "month", "1M", "quarter", "1q", "year",
   "1y", "second", "1s"]

/-- The key of an interval: one calendar unit, or a fixed length of time. -/
def intervalKey (interval : String) : String :=
  if calendarIntervals.contains interval then "calendar_interval" else "fixed_interval"

/-- A call that attaches an aggregation, with its arguments. -/
inductive AggregationCall where
  | general (name : String) (spec : Value)
  | terms (name field : String) (size : Int)
  | dateHistogram (name field interval : String)
  | histogram (name field : String) (interval : Int)
  | range (name field : String) (ranges : List Value)
  | filters (name : String) (clauses : Object)
  | nested (name path : String) (aggs : Object)
  | metric (m : Metric) (name field : String)
  | percentiles (name field : String) (percents : Option (List Double))

namespace AggregationCall

/-- The name of a call, which its rejections carry. -/
def callName : AggregationCall → String
  | general .. => "aggregate"
  | terms .. => "terms_agg"
  | dateHistogram .. => "date_histogram_agg"
  | histogram .. => "histogram_agg"
  | range .. => "range_agg"
  | filters .. => "filters_agg"
  | nested .. => "nested_agg"
  | metric m _ _ => m.kind ++ "_agg"
  | percentiles .. => "percentiles_agg"

/-- The name and the specification of the general call. -/
def attach (name : String) (spec : Value) : Checked (String × Value) := do
  Argument.aggregationName name "aggregate"
  Argument.aggregationSpec spec name "aggregate"
  return (name, spec)

/-- What is attached passes the two checks, and is what was given. -/
theorem attach_eq_ok_iff {name : String} {spec : Value} {r : String × Value} :
    attach name spec = .ok r ↔
      (isBlank name = false ∧ spec.isObject = true) ∧ r = (name, spec) := by
  cases hn : isBlank name <;> cases hs : spec.isObject <;>
    simp [attach, Argument.aggregationName, Argument.aggregationSpec, require, hn, hs, bind,
      Except.bind, pure, Except.pure, eq_comm]

/-- A helper names an aggregation and a field. -/
def nameAndField (name field context : String) : Checked Unit := do
  Argument.aggregationName name context
  Argument.fieldName field context

/-- A percentage. -/
def isPercentage (x : Double) : Bool := x.within .zero (.ofInt 100)

/-- A list of percentages, not empty; the first number that is none is reported. -/
def percentages (percents : List Double) (context : String) : Checked Unit := do
  Argument.nonEmpty percents "percents" context
  match percents.find? fun x => !isPercentage x with
  | some x => .error (Fault.reject (.percentileOutside x) "percents" context)
  | none => .ok ()

/-- The name and the specification of a metric over one field. -/
def fieldAggregation (context name kind field : String) : Checked (String × Value) := do
  nameAndField name field context
  return (name, .single kind (.single "field" (.str field)))

/-- The name and the specification of a call, or what is wrong with its arguments. -/
def check : AggregationCall → Checked (String × Value)
  | general name spec => attach name spec
  | terms name field size => do
    nameAndField name field "terms_agg"
    let size ← Argument.positive size "size" "terms_agg"
    attach name (.single "terms" (.obj [("field", .str field), ("size", .nat size)]))
  | dateHistogram name field interval => do
    nameAndField name field "date_histogram_agg"
    Argument.nonBlank interval "interval" "date_histogram_agg"
    let interval := trimmed interval
    attach name (.single "date_histogram"
      (.obj [("field", .str field), (intervalKey interval, .str interval)]))
  | histogram name field interval => do
    nameAndField name field "histogram_agg"
    let interval ← Argument.positive interval "interval" "histogram_agg"
    attach name (.single "histogram" (.obj [("field", .str field), ("interval", .nat interval)]))
  | range name field ranges => do
    nameAndField name field "range_agg"
    Argument.nonEmpty ranges "ranges" "range_agg"
    attach name (.single "range" (.obj [("field", .str field), ("ranges", .arr ranges)]))
  | filters name clauses => do
    Argument.aggregationName name "filters_agg"
    require (!clauses.isEmpty) .filtersEmpty "filters" "filters_agg"
    attach name (.single "filters" (.single "filters" (.obj clauses)))
  | nested name path aggs => do
    nameAndField name path "nested_agg"
    attach name (.obj [("nested", .single "path" (.str path)), ("aggs", .obj aggs)])
  | metric .avg name field => fieldAggregation "avg_agg" name "avg" field
  | metric .sum name field => fieldAggregation "sum_agg" name "sum" field
  | metric .min name field => fieldAggregation "min_agg" name "min" field
  | metric .max name field => fieldAggregation "max_agg" name "max" field
  | metric .cardinality name field =>
    fieldAggregation "cardinality_agg" name "cardinality" field
  | metric .valueCount name field =>
    fieldAggregation "value_count_agg" name "value_count" field
  | metric .stats name field => fieldAggregation "stats_agg" name "stats" field
  | percentiles name field percents => do
    nameAndField name field "percentiles_agg"
    match percents with
    | some percents => percentages percents "percentiles_agg"
    | none => pure ()
    attach name (.single "percentiles" (.record
      [("field", some (.str field)),
       ("percents", percents.map fun ps => .arr (ps.map .ofDouble))]))

/-- The metrics are alike, but for the name of the call and the kind of aggregation. -/
theorem check_metric (m : Metric) (name field : String) :
    (metric m name field).check = fieldAggregation (m.kind ++ "_agg") name m.kind field := by
  cases m <;> rfl

end AggregationCall

end SearchRequest

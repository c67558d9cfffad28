import SearchRequest.Preset.Window
import SearchRequest.Step.Basic

/-!
# Reports

Calls for documents that ask for aggregations over a window of time. Each call stands for one step
of a builder.
-/

namespace SearchRequest

/-- A call of a report. -/
inductive ReportCall where
  | aggregationsOnly
  | dateRange (field : String) (start stop : Instant)
  | groupBy (name field : String) (size : Int)
  | overTime (name field interval : String)
  | metric (name : String) (m : Metric) (field : String)
  /-- a metric under an aggregation that is there -/
  | metricPerBucket (bucket name : String) (m : Metric) (field : String)

namespace ReportCall

/-- The kind of aggregation that computes a metric under another one. -/
def bucketKind : Metric → String
  | .avg => "avg"
  | .sum => "sum"
  | .min => "min"
  | .max => "max"
  | .cardinality => "cardinality"
  | .valueCount => "value_count"
  | .stats => "stats"

/-- The steps of a call, or what is wrong with its arguments. -/
def steps : ReportCall → Checked (List Step)
  | aggregationsOnly => return [.size 0]
  | dateRange field start stop => do
    let window ← timeWindow start stop field "date_range"
    return [.clause (.range field window)]
  | groupBy name field size => return [.aggregate (.terms name field size)]
  | overTime name field interval => return [.aggregate (.dateHistogram name field interval)]
  | metric name m field => return [.aggregate (.metric m name field)]
  | metricPerBucket bucket name m field =>
    return [.subAggregate bucket name (.single (bucketKind m) (.single "field" (.str field)))]

end ReportCall

end SearchRequest

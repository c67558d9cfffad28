import SearchRequest.Preset.Window
import SearchRequest.Step.Basic

/-!
# Log search

Calls for log entries with the fields `@timestamp`, `level`, `service` and `message`. Each call
stands for one or more steps of a builder.

`LogCall.trailing?` is the call for the time up to now. The clock is an argument; there is no such
call when the window reaches beyond the range of instants.
-/

namespace SearchRequest

/-- A call of a log search. -/
inductive LogCall where
  | timeRange (start stop : Instant)
  | level (name : String)
  | levels (names : List String)
  | errorsOnly
  | service (name : String)
  | messageContains (text : String)
  | excludeService (name : String)
  | newestFirst
  | withTimeline (interval : String)

namespace LogCall

/-- The field of an entry's time. -/
def timestampField : String := "@timestamp"

/-- The steps of a call, or what is wrong with its arguments. -/
def steps : LogCall → Checked (List Step)
  | timeRange start stop => do
    let window ← timeWindow start stop timestampField "time_range"
    return [.clause (.range timestampField window)]
  | level name => return [.clause (.term "level" (.str name))]
  | levels names => return [.clause (.terms "level" (names.map .str))]
  | errorsOnly => return [.clause (.terms "level" [.str "error", .str "fatal"])]
  | service name => return [.clause (.term "service" (.str name))]
  | messageContains text => return [.clause (.textMatch "message" (.str text))]
  | excludeService name => return [.mustNot [.clause (.term "service" (.str name))]]
  | newestFirst => return [.sort timestampField "desc"]
  | withTimeline interval =>
    return [.aggregate (.dateHistogram "timeline" timestampField interval),
      .aggregate (.terms "levels" "level" 10)]

/-- The greatest length of a window, in milliseconds. -/
def maxWindowMillis : Nat := 0x7FFFFFFFFFFFFFFF

/-- The call for the entries of the trailing window, given in milliseconds. -/
def trailing? (now : Instant) (windowMillis : Int) : Option LogCall :=
  if windowMillis.natAbs ≤ maxWindowMillis then
    (now.plusMillis? (-windowMillis)).map (timeRange · now)
  else none

end LogCall

end SearchRequest

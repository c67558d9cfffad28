import SearchRequest.Argument.Basic
import SearchRequest.Time.Text

/-!
# Time windows

A time window is a range over instants that holds both of its ends.
-/

namespace SearchRequest

/-- The range from one instant to another, as a range specification over a field. The start must
not lie after the end. -/
def timeWindow (start stop : Instant) (field context : String) : Checked Value := do
  require (start.le stop) (.windowReversed start.prose stop.prose) field context
  return .obj [("gte", .str start.rfc3339), ("lte", .str stop.rfc3339)]

end SearchRequest

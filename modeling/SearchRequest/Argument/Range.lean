import SearchRequest.Argument.Basic

/-!
# Range specifications

A range specification is an object of bounds: `gte` or `gt` from below, `lte` or `lt` from above,
and a `boost`. It names at least one of these keys, no others, and never two bounds for one side.
The values under the keys are not looked at.
-/

namespace SearchRequest.Argument

/-- The pairs of bounds that exclude each other: the inclusive and the exclusive one of a side. -/
def rangeSides : List (String × String) := [("gte", "gt"), ("lte", "lt")]

/-- The keys of the specification that a range does not know, in order. -/
def unknownRangeKeys (bounds : Object) : List String :=
  bounds.keys.filter fun key => !rangeKeys.contains key

/-- The first side that is given two bounds. -/
def doubledSide? (bounds : Object) : Option (String × String) :=
  rangeSides.find? fun side => bounds.contains side.1 && bounds.contains side.2

/-- The bounds of a range specification. Unknown keys are reported before missing ones, and these
before contradictory ones. -/
def range (spec : Value) (field context : String) : Checked Object := do
  match spec with
  | .obj bounds =>
    let unknown := unknownRangeKeys bounds
    require unknown.isEmpty (.rangeKeysUnknown unknown) field context
    require (!bounds.isEmpty) .rangeEmpty field context
    match doubledSide? bounds with
    | some side => .error (Fault.reject (.rangeBoundsConflict side.1 side.2) field context)
    | none => .ok bounds
  | _ => .error (Fault.rangeNotObject.reject field context)

end SearchRequest.Argument

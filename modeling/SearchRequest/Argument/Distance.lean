import SearchRequest.Argument.Basic
import SearchRequest.Text.DecimalDigit

/-!
# Distances

A distance is a number with an optional unit, as in `10km`, `1.5 mi` or `300`. Blanks around it are
removed first. The number has at least one digit, and where it has a point at least one digit behind
it; any decimal digit counts, of whatever script. Blanks may stand before the unit, which is
written exactly as in `distanceUnits`.

`isDistance` reads such a text from left to right and takes all it can at each point. Nothing is
missed: no unit starts with a digit, a point or a blank.
-/

namespace SearchRequest.Argument

/-- The names of the units. -/
def distanceUnits : List String :=
  ["mi", "miles", "yd", "yards", "ft", "feet", "in", "inch", "km", "kilometers", "m", "meters",
   "cm", "centimeters", "mm", "millimeters", "NM", "nmi", "nauticalmiles"]

/-- What is left behind a point and the digits after it; without them, all of it. -/
def skipFraction : List Char → List Char
  | '.' :: rest =>
    if (rest.takeWhile isDecimalDigit).isEmpty then '.' :: rest
    else rest.dropWhile isDecimalDigit
  | rest => rest

/-- The characters spell a unit, or nothing. -/
def isUnitOrNothing (cs : List Char) : Bool :=
  cs.isEmpty || distanceUnits.any fun unit => unit.toList == cs

/-- The characters are a number with an optional unit behind it. -/
def isDistanceChars (cs : List Char) : Bool :=
  !(cs.takeWhile isDecimalDigit).isEmpty &&
    isUnitOrNothing ((skipFraction (cs.dropWhile isDecimalDigit)).dropWhile isBlankChar)

/-- The text is a distance, blanks around it aside. -/
def isDistance (text : String) : Bool := isDistanceChars (trimChars text.toList)

/-- A distance argument is a number with an optional unit. -/
def distance (given field context : String) : Checked Unit :=
  require (isDistance given) (.distanceInvalid given) field context

@[simp] theorem distance_eq_ok_iff {given field context : String} {u : Unit} :
    distance given field context = .ok u ↔ isDistance given = true := by
  simp [distance]

end SearchRequest.Argument

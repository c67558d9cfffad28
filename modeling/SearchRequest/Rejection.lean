import SearchRequest.Number.Style

/-!
# Rejected arguments

Every operation checks its arguments before it changes anything. What a check finds wrong is a
`Fault`; what the caller gets is a `Rejection`.

* `ErrorCode` — the machine-readable reasons, in a fixed order.
* `Fault` — the causes, each with the data that its message shows. `Fault.code` and `Fault.message`
  are the only places where a cause meets its code and its wording.
* `Rejection` — a code and a message with the operation that raised them and the argument to blame.
* `Rejection.display`, `Rejection.report` — the text of a rejection, alone and as a caller logs it.
-/

namespace SearchRequest

/-! ## Codes -/

/-- The machine-readable reason of a rejection. -/
inductive ErrorCode where
  | fieldNameEmpty
  | queryValueMissing
  | queryValueEmpty
  | invalidRangeType
  | emptyRange
  | invalidRangeKeys
  | conflictingRangeBounds
  | invalidFrom
  | invalidSize
  | sizeExceedsLimit
  | invalidSortOrder
  | emptyArray
  | invalidArrayElement
  | invalidMultiMatchType
  | aggregationNameEmpty
  | invalidAggregation
  | aggregationNotFound
  | emptyTermsValues
  | invalidIndexName
  | indexNameTooLong
  | invalidPositiveInteger
  | emptyString
  | invalidBoost
  | invalidNumber
  | invalidGeoPoint
  | invalidDistance
  | invalidPolygon
  | invalidQueryObject
  | invalidSection
deriving DecidableEq, Repr

namespace ErrorCode

/-- The codes in their order. -/
def all : List ErrorCode :=
  [fieldNameEmpty, queryValueMissing, queryValueEmpty, invalidRangeType, emptyRange,
   invalidRangeKeys, conflictingRangeBounds, invalidFrom, invalidSize, sizeExceedsLimit,
   invalidSortOrder, emptyArray, invalidArrayElement, invalidMultiMatchType, aggregationNameEmpty,
   invalidAggregation, aggregationNotFound, emptyTermsValues, invalidIndexName, indexNameTooLong,
   invalidPositiveInteger, emptyString, invalidBoost, invalidNumber, invalidGeoPoint,
   invalidDistance, invalidPolygon, invalidQueryObject, invalidSection]

/-- Every code is listed. -/
theorem mem_all (code : ErrorCode) : code ∈ all := by
  cases code <;> decide

/-- The code as it appears in logs and answers. -/
def text : ErrorCode → String
  | fieldNameEmpty => "FIELD_NAME_EMPTY"
  | queryValueMissing => "QUERY_VALUE_MISSING"
  | queryValueEmpty => "QUERY_VALUE_EMPTY"
  | invalidRangeType => "INVALID_RANGE_TYPE"
  | emptyRange => "EMPTY_RANGE"
  | invalidRangeKeys => "INVALID_RANGE_KEYS"
  | conflictingRangeBounds => "CONFLICTING_RANGE_BOUNDS"
  | invalidFrom => "INVALID_FROM"
  | invalidSize => "INVALID_SIZE"
  | sizeExceedsLimit => "SIZE_EXCEEDS_LIMIT"
  | invalidSortOrder => "INVALID_SORT_ORDER"
  | emptyArray => "EMPTY_ARRAY"
  | invalidArrayElement => "INVALID_ARRAY_ELEMENT"
  | invalidMultiMatchType => "INVALID_MULTI_MATCH_TYPE"
  | aggregationNameEmpty => "AGGREGATION_NAME_EMPTY"
  | invalidAggregation => "INVALID_AGGREGATION"
  | aggregationNotFound => "AGGREGATION_NOT_FOUND"
  | emptyTermsValues => "EMPTY_TERMS_VALUES"
  | invalidIndexName => "INVALID_INDEX_NAME"
  | indexNameTooLong => "INDEX_NAME_TOO_LONG"
  | invalidPositiveInteger => "INVALID_POSITIVE_INTEGER"
  | emptyString => "EMPTY_STRING"
  | invalidBoost => "INVALID_BOOST"
  | invalidNumber => "INVALID_NUMBER"
  | invalidGeoPoint => "INVALID_GEO_POINT"
  | invalidDistance => "INVALID_DISTANCE"
  | invalidPolygon => "INVALID_POLYGON"
  | invalidQueryObject => "INVALID_QUERY_OBJECT"
  | invalidSection => "INVALID_SECTION"

end ErrorCode

/-! ## Causes -/

/-- What is wrong with an index name of acceptable length. -/
inductive IndexNameFault where
  | empty
  | dots
  | leadingMark
  | forbiddenCharacter
deriving DecidableEq, Repr

/-- What the name would have to be. -/
def IndexNameFault.rule : IndexNameFault → String
  | empty => "must not be empty"
  | dots => "must not be '.' or '..'"
  | leadingMark => "must not start with '-', '_' or '+'"
  | forbiddenCharacter => "only lowercase letters, digits, '.', '_' and '-' are allowed"

/-- The keys of a range specification. -/
def rangeKeys : List String := ["gte", "gt", "lte", "lt", "boost"]

/-- The longest index name, in bytes. -/
def maxIndexNameBytes : Nat := 255

/-- A cause of rejection. Where a list or a number is at fault, `argument` is its name in the
operation's own terms. -/
inductive Fault where
  | fieldNameBlank
  | valueMissing
  | valueBlank
  | rangeNotObject
  | rangeKeysUnknown (keys : List String)
  | rangeEmpty
  | rangeBoundsConflict (inclusive exclusive : String)
  | windowReversed (start stop : String)
  | offsetNegative (given : Int)
  | sizeNegative (given : Int)
  | sizeTooLarge (limit given : Nat)
  | sortOrderUnknown (given : String)
  | listEmpty (argument : String)
  | filtersEmpty
  | elementBlank (argument : String) (index : Nat)
  | elementNotObject (argument : String) (index : Nat)
  | highlightNotObject (field : String)
  | percentileOutside (given : Double)
  | strategyUnknown (given : String) (allowed : List String)
  | aggregationNameBlank
  | aggregationNotObject (name : String)
  | aggregationMissing (name : String)
  | termsEmpty
  | indexNameInvalid (name : String) (fault : IndexNameFault)
  | indexNameTooLong
  | integerNotPositive (argument : String) (given : Int)
  | textBlank (argument : String)
  | boostInvalid (given : Double)
  | numberNotFinite (argument : String) (given : Double)
  | latitudeOutside (given : Double)
  | longitudeOutside (given : Double)
  | boxUpsideDown
  | polygonTooShort (points : Nat)
  | distanceInvalid (given : String)
  | queryNotObject
  | boolNotObject
  | sectionUnknown (given : String)
deriving DecidableEq, Repr

namespace Fault

/-- The code under which a cause is reported. -/
def code : Fault → ErrorCode
  | fieldNameBlank => .fieldNameEmpty
  | valueMissing => .queryValueMissing
  | valueBlank => .queryValueEmpty
  | rangeNotObject => .invalidRangeType
  | rangeKeysUnknown _ => .invalidRangeKeys
  | rangeEmpty => .emptyRange
  | rangeBoundsConflict .. | windowReversed .. => .conflictingRangeBounds
  | offsetNegative _ => .invalidFrom
  | sizeNegative _ => .invalidSize
  | sizeTooLarge .. => .sizeExceedsLimit
  | sortOrderUnknown _ => .invalidSortOrder
  | listEmpty _ | filtersEmpty => .emptyArray
  | elementBlank .. | elementNotObject .. | highlightNotObject _ | percentileOutside _ =>
    .invalidArrayElement
  | strategyUnknown .. => .invalidMultiMatchType
  | aggregationNameBlank => .aggregationNameEmpty
  | aggregationNotObject _ => .invalidAggregation
  | aggregationMissing _ => .aggregationNotFound
  | termsEmpty => .emptyTermsValues
  | indexNameInvalid .. => .invalidIndexName
  | indexNameTooLong => .indexNameTooLong
  | integerNotPositive .. => .invalidPositiveInteger
  | textBlank _ => .emptyString
  | boostInvalid _ => .invalidBoost
  | numberNotFinite .. => .invalidNumber
  | latitudeOutside _ | longitudeOutside _ | boxUpsideDown => .invalidGeoPoint
  | polygonTooShort _ => .invalidPolygon
  | distanceInvalid _ => .invalidDistance
  | queryNotObject | boolNotObject => .invalidQueryObject
  | sectionUnknown _ => .invalidSection

/-- Names in a row, as messages list them. -/
def listed (names : List String) : String := ", ".intercalate names

/-- The wording of a cause. -/
def message : Fault → String
  | fieldNameBlank => "Field name must be a non-empty string"
  | valueMissing => "Query value must not be null"
  | valueBlank => "Query value must not be an empty string"
  | rangeNotObject => "Range specification must be an object"
  | rangeKeysUnknown keys =>
    s!"Unknown range keys: {listed keys}. Allowed keys: {listed rangeKeys}"
  | rangeEmpty => s!"Range must contain at least one of: {listed rangeKeys}"
  | rangeBoundsConflict inclusive exclusive =>
    s!"Range cannot contain both '{inclusive}' and '{exclusive}'"
  | windowReversed start stop => s!"Window start {start} is after its end {stop}"
  | offsetNegative given => s!"'from' must be a non-negative integer, got {given}"
  | sizeNegative given => s!"'size' must be a non-negative integer, got {given}"
  | sizeTooLarge limit given => s!"'size' must not exceed {limit}, got {given}"
  | sortOrderUnknown given => s!"Sort order must be 'asc' or 'desc', got '{given}'"
  | listEmpty argument => s!"'{argument}' must be a non-empty array"
  | filtersEmpty => "'filters' must contain at least one filter"
  | elementBlank argument index => s!"'{argument}[{index}]' must be a non-empty string"
  | elementNotObject argument index => s!"'{argument}[{index}]' must be an object"
  | highlightNotObject field => s!"Highlight options for '{field}' must be an object"
  | percentileOutside given => s!"Percentile {given.prose} is outside 0..=100"
  | strategyUnknown given allowed =>
    s!"Invalid multi_match type '{given}'. Allowed types: {listed allowed}"
  | aggregationNameBlank => "Aggregation name must be a non-empty string"
  | aggregationNotObject name => s!"Aggregation '{name}' must be an object"
  | aggregationMissing name => s!"No aggregation named '{name}'"
  | termsEmpty => "Terms values must be a non-empty array"
  | indexNameInvalid name fault => s!"Invalid index name '{name}': {fault.rule}"
  | indexNameTooLong => s!"Index name must be at most {maxIndexNameBytes} bytes"
  | integerNotPositive argument given => s!"'{argument}' must be a positive integer, got {given}"
  | textBlank argument => s!"'{argument}' must be a non-empty string"
  | boostInvalid given => s!"Boost must be a finite, non-negative number, got {given.prose}"
  | numberNotFinite argument given => s!"'{argument}' must be a finite number, got {given.prose}"
  | latitudeOutside given => s!"Invalid latitude: {given.prose} (must be between -90 and 90)"
  | longitudeOutside given => s!"Invalid longitude: {given.prose} (must be between -180 and 180)"
  | boxUpsideDown => "top_left must not lie south of bottom_right"
  | polygonTooShort points => s!"A polygon needs at least 3 points, got {points}"
  | distanceInvalid given =>
    s!"Invalid distance '{given}', expected a number with an optional unit"
  | queryNotObject => "Query must be a JSON object"
  | boolNotObject => "'bool' must be an object"
  | sectionUnknown given => s!"Unknown bool section '{given}'"

end Fault

/-! ## Rejections -/

/-- A rejected argument. -/
structure Rejection where
  code : ErrorCode
  message : String
  /-- the argument, or the field of the data, to blame -/
  field : Option String
  /-- the operation that raised the rejection -/
  context : String
deriving DecidableEq, Repr

/-- The rejection for a cause, raised by the operation `context` and blaming `field`. -/
def Fault.reject (fault : Fault) (field context : String) : Rejection :=
  ⟨fault.code, fault.message, some field, context⟩

namespace Rejection

/-- The text of a rejection. -/
def display (r : Rejection) : String :=
  let blame := match r.field with
    | some field => s!" (field: {field})"
    | none => ""
  s!"[{r.code.text}] {r.context}: {r.message}{blame}"

/-- The text of a rejection among other errors. -/
def report (r : Rejection) : String := s!"Validation error: {r.display}"

end Rejection

/-- A check that passes, or raises a rejection. -/
abbrev Checked (α : Type) := Except Rejection α

end SearchRequest

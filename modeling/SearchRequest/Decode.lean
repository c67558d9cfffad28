import SearchRequest.Config
import SearchRequest.Document.Basic

/-!
# Reading parts of a request back

Every part of a request can be read back from JSON. Nothing is checked here beyond the shape: a
point may lie off the globe, a field name may be blank.

* Keys that a part does not know are skipped. An optional part that is missing or `null` is absent.
* A count is an integer of its width; a floating number may be written as an integer.
* A part with fixed keys may also be given as a list of its values in order, with optional values
  left out at the end. A highlight may not, since its keys are not fixed.
* A token may also be given as an object with the token as its one key and `null` under it.
* Clauses and sort entries are read as raw ones, which keep what they are given.
-/

namespace SearchRequest

namespace Decode

/-! ## Simple values -/

/-- A string. -/
def string? : Value → Option String
  | .str s => some s
  | _ => none

/-- A boolean. -/
def boolean? : Value → Option Bool
  | .bool b => some b
  | _ => none

/-- A count below the given bound. -/
def natBelow? (bound : Nat) : Value → Option Nat
  | .int (.ofNat n) => if n < bound then some n else none
  | _ => none

/-- A floating number. -/
def double? : Value → Option Double
  | .int n => some (.ofInt n)
  | .float x => some x
  | _ => none

/-- A list. -/
def list? : Value → Option (List Value)
  | .arr items => some items
  | _ => none

/-- A list of strings. -/
def strings? (v : Value) : Option (List String) := (list? v).bind (·.mapM string?)

/-- A token, or an object that holds it. -/
def token? {α : Type} (ofText? : String → Option α) : Value → Option α
  | .str s => ofText? s
  | .obj [(s, .null)] => ofText? s
  | _ => none

/-! ## Records -/

/-- The fields of a record, from an object or from a list in the order of the keys. -/
def record? (keys : List String) : Value → Option Object
  | .obj members => some members
  | .arr items => if items.length ≤ keys.length then some (keys.zip items) else none
  | _ => none

/-- A field that must be there. -/
def requiredField {α : Type} (fields : Object) (key : String) (read : Value → Option α) :
    Option α :=
  (fields.find? key).bind read

/-- A field that may be missing or `null`. -/
def optionalField {α : Type} (fields : Object) (key : String) (read : Value → Option α) :
    Option (Option α) :=
  match fields.find? key with
  | none | some .null => some none
  | some v => (read v).map some

/-- The values of a 64-bit count lie below this bound. -/
def bound64 : Nat := 0x10000000000000000

/-- The values of a 32-bit count lie below this bound. -/
def bound32 : Nat := 0x100000000

end Decode

open Decode

/-! ## Parts of a request -/

/-- A configuration, both of whose fields must be given. -/
def Config.decode? (v : Value) : Option Config := do
  let fields ← record? ["max_result_window", "keyword_suffix"] v
  let maxResultWindow ← requiredField fields "max_result_window" (natBelow? bound64)
  let keywordSuffix ← requiredField fields "keyword_suffix" string?
  return { maxResultWindow, keywordSuffix }

/-- A configuration as JSON. -/
def Config.toValue (c : Config) : Value :=
  .obj [("max_result_window", .nat c.maxResultWindow), ("keyword_suffix", .str c.keywordSuffix)]

/-- A point, wherever it lies. -/
def GeoPoint.decode? (v : Value) : Option GeoPoint := do
  let fields ← record? ["lat", "lon"] v
  let lat ← requiredField fields "lat" double?
  let lon ← requiredField fields "lon" double?
  return { lat, lon }

/-- A query root. -/
def QueryRoot.decode? (v : Value) : Option (QueryRoot Clause) := (QueryRoot.adopt .raw v).toOption

/-- The fuller form of a sort entry. -/
def SortOptions.decode? (v : Value) : Option SortOptions := do
  let fields ← record? ["order", "mode", "missing", "unmapped_type"] v
  let order ← requiredField fields "order" (token? SortOrder.ofText?)
  let mode ← optionalField fields "mode" string?
  let missing ← optionalField fields "missing" some
  let unmappedType ← optionalField fields "unmapped_type" string?
  return { order, mode, missing, unmappedType }

/-- A source filter: a boolean or a list of strings. -/
def SourceFilter.decode? : Value → Option SourceFilter
  | .bool all => some (.enabled all)
  | v => (strings? v).map .fields

/-- Options for all highlighted fields, among other fields. -/
def HighlightOptions.ofFields? (fields : Object) : Option HighlightOptions := do
  let preTags ← optionalField fields "pre_tags" strings?
  let postTags ← optionalField fields "post_tags" strings?
  let fragmentSize ← optionalField fields "fragment_size" (natBelow? bound32)
  let numberOfFragments ← optionalField fields "number_of_fragments" (natBelow? bound32)
  return { preTags, postTags, fragmentSize, numberOfFragments }

/-- Options for all highlighted fields. -/
def HighlightOptions.decode? (v : Value) : Option HighlightOptions :=
  (record? ["pre_tags", "post_tags", "fragment_size", "number_of_fragments"] v).bind
    HighlightOptions.ofFields?

/-- A highlight. -/
def Highlight.decode? (v : Value) : Option Highlight := do
  let members ← v.object?
  let fields ← requiredField members "fields" Value.object?
  let options ← HighlightOptions.ofFields? members
  return { fields, options }

/-- The keys of a document, in order. -/
def Document.keys : List String :=
  ["from", "size", "query", "sort", "_source", "aggregations", "highlight", "track_total_hits",
   "min_score", "search_after"]

/-- A document. -/
def Document.decode? (v : Value) : Option Document := do
  let fields ← record? Document.keys v
  let offset ← optionalField fields "from" (natBelow? bound64)
  let size ← optionalField fields "size" (natBelow? bound64)
  let query ← optionalField fields "query" QueryRoot.decode?
  let sort ← optionalField fields "sort" fun v => (list? v).map (·.map SortSpec.raw)
  let source ← optionalField fields "_source" SourceFilter.decode?
  let aggregations ← optionalField fields "aggregations" Value.object?
  let highlight ← optionalField fields "highlight" Highlight.decode?
  let trackTotalHits ← optionalField fields "track_total_hits" boolean?
  let minScore ← optionalField fields "min_score" double?
  let searchAfter ← optionalField fields "search_after" list?
  return { offset, size, query, sort, source, aggregations, highlight, trackTotalHits, minScore,
           searchAfter }

end SearchRequest

import SearchRequest.Json.Value
import SearchRequest.Rejection

/-!
# Sorting, source filters and highlights

The parts of a search document beside the query and the aggregations: in which order hits come
(`SortSpec`), which fields of a hit are returned (`SourceFilter`), and which are highlighted
(`Highlight`).
-/

namespace SearchRequest

/-! ## Sorting -/

/-- A sort direction. -/
inductive SortOrder where
  | asc
  | desc
deriving DecidableEq, Inhabited, Repr

namespace SortOrder

/-- The token of a direction. -/
def text : SortOrder → String
  | asc => "asc"
  | desc => "desc"

/-- The direction with the given token. -/
def ofText? (token : String) : Option SortOrder := [asc, desc].find? fun o => o.text == token

/-- The direction that an argument names. -/
def parse (given context : String) : Checked SortOrder :=
  match ofText? given with
  | some o => .ok o
  | none => .error (Fault.reject (.sortOrderUnknown given) "order" context)

end SortOrder

/-- The fuller form of a sort entry. -/
structure SortOptions where
  order : SortOrder
  /-- how several values of one hit are reduced -/
  mode : Option String := none
  /-- where hits without the field go -/
  missing : Option Value := none
  unmappedType : Option String := none
deriving Inhabited, Repr

/-- The options as JSON. -/
def SortOptions.toValue (o : SortOptions) : Value :=
  .record
    [("order", some (.str o.order.text)), ("mode", o.mode.map .str), ("missing", o.missing),
     ("unmapped_type", o.unmappedType.map .str)]

/-- One entry of a sort list. -/
inductive SortSpec where
  | byField (field : String) (order : SortOrder)
  | detailed (field : String) (options : SortOptions)
  /-- an entry given as JSON, kept as it is -/
  | raw (value : Value)
deriving Inhabited, Repr

/-- A sort entry as JSON. -/
def SortSpec.toValue : SortSpec → Value
  | byField field order => .single field (.str order.text)
  | detailed field options => .single field options.toValue
  | raw value => value

/-! ## Source filters -/

/-- The part of each hit's source that is returned: all or nothing, or certain fields. -/
inductive SourceFilter where
  | enabled (all : Bool)
  | fields (names : List String)
deriving DecidableEq, Inhabited, Repr

/-- A source filter as JSON. -/
def SourceFilter.toValue : SourceFilter → Value
  | enabled all => .bool all
  | fields names => .strings names

/-! ## Highlights -/

/-- Options for all highlighted fields. -/
structure HighlightOptions where
  preTags : Option (List String) := none
  postTags : Option (List String) := none
  fragmentSize : Option Nat := none
  numberOfFragments : Option Nat := none
deriving DecidableEq, Inhabited, Repr

/-- The options that are set, in the order in which they are written. -/
def HighlightOptions.fields (o : HighlightOptions) : List (String × Option Value) :=
  [("pre_tags", o.preTags.map .strings), ("post_tags", o.postTags.map .strings),
   ("fragment_size", o.fragmentSize.map .nat),
   ("number_of_fragments", o.numberOfFragments.map .nat)]

/-- The options as JSON. -/
def HighlightOptions.toValue (o : HighlightOptions) : Value := .record o.fields

/-- Fields to highlight, in order, each with its own options, and options for all of them. -/
structure Highlight where
  fields : Object := []
  options : HighlightOptions := {}
deriving Inhabited, Repr

/-- A highlight as JSON: the options for all stand beside the fields. -/
def Highlight.toValue (h : Highlight) : Value :=
  .record (("fields", some (.obj h.fields)) :: h.options.fields)

end SearchRequest

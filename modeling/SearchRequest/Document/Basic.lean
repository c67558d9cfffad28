import SearchRequest.Document.Parts
import SearchRequest.Query.Clause

/-!
# Search documents

A document is the body of a search. The live document of a builder keeps empty sections, so that
clauses can be added to them; `Document.finalized` is the cleaned copy that is sent.

* `Document.fresh` — the document of a new builder: an empty bool query.
* `Document.toValue` — a document as JSON. Parts that are not set are not written.
* `Document.complexity` — a cost estimate: one, a point for each clause and each sort entry, two for
  each aggregation.
* `Document.report` — what is wrong with a document as a whole, under a configured window.
-/

namespace SearchRequest

/-- The body of a search. -/
structure Document where
  offset : Option Nat := none
  size : Option Nat := none
  query : Option (QueryRoot Clause) := none
  sort : Option (List SortSpec) := none
  source : Option SourceFilter := none
  aggregations : Option Object := none
  highlight : Option Highlight := none
  trackTotalHits : Option Bool := none
  minScore : Option Double := none
  searchAfter : Option (List Value) := none
deriving Inhabited

/-- The outcome of looking at a document as a whole. -/
structure Report where
  valid : Bool
  errors : List String
deriving DecidableEq, Repr

namespace Document

/-- The document of a new builder. -/
def fresh : Document := { query := some .wrapper }

/-- The bool query at the top, if there is one. -/
def bool? (d : Document) : Option (BoolQuery Clause) := d.query.bind (·.bool)

/-- How many clauses the bool query at the top holds. -/
def clauseCount (d : Document) : Nat := (d.bool?.map BoolQuery.clauseCount).getD 0

/-- How many aggregations stand at the top. -/
def aggregationCount (d : Document) : Nat := (d.aggregations.map List.length).getD 0

/-- How many sort entries there are. -/
def sortCount (d : Document) : Nat := (d.sort.map List.length).getD 0

/-- A cost estimate. -/
def complexity (d : Document) : Nat :=
  1 + d.clauseCount + 2 * d.aggregationCount + d.sortCount

/-- An empty sort list is no sort list. -/
def finalSort : Option (List SortSpec) → Option (List SortSpec)
  | some [] => none
  | specs => specs

/-- The document as it is sent. -/
def finalized (d : Document) : Document :=
  { d with query := d.query.map QueryRoot.finalized, sort := finalSort d.sort }

/-- A document as JSON. -/
def toValue (d : Document) : Value :=
  .record
    [("from", d.offset.map .nat), ("size", d.size.map .nat),
     ("query", d.query.map QueryRoot.toValue),
     ("sort", d.sort.map fun specs => .arr (specs.map SortSpec.toValue)),
     ("_source", d.source.map SourceFilter.toValue), ("aggregations", d.aggregations.map .obj),
     ("highlight", d.highlight.map Highlight.toValue),
     ("track_total_hits", d.trackTotalHits.map .bool), ("min_score", d.minScore.map .ofDouble),
     ("search_after", d.searchAfter.map .arr)]

/-! ## The report -/

/-- The greatest number that an offset, a size or a window can be. -/
def maxCount : Nat := 0xFFFFFFFFFFFFFFFF

/-- The end of a page, held at the greatest number. -/
def pageEnd (offset size : Nat) : Nat := min (offset + size) maxCount

/-- What is wrong with a document as it is sent, under the given window. -/
def problems (window : Nat) (d : Document) : List String :=
  (if d.query.isNone then ["Query is missing"] else []) ++
  (match d.size with
    | some size => if window < size then [s!"Size {size} exceeds the limit of {window}"] else []
    | none => []) ++
  (match d.offset, d.size with
    | some offset, some size =>
      let last := pageEnd offset size
      if window < last then [s!"from + size ({last}) exceeds the result window of {window}"]
      else []
    | _, _ => [])

/-- The report on a live document, made of the document that it would send. -/
def report (window : Nat) (d : Document) : Report :=
  let errors := d.finalized.problems window
  ⟨errors.isEmpty, errors⟩

end Document

end SearchRequest

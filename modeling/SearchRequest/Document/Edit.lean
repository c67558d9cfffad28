import SearchRequest.Document.Basic

/-!
# Edits of a document

Once the arguments of a call are checked, what is left of it is an `Edit`: a change of the live
document that no longer asks whether it is allowed. Only one edit can fail, the one that looks for
an aggregation to extend.

* `Wrapper` — the two queries that hold the whole former query. `Wrapper.body` writes one around it.
* `Document.editBool` — every edit of clauses goes through here: the bool query is installed, with
  its four sections, before it is changed.
* `Edit.apply` — the meaning of an edit.
-/

namespace SearchRequest

/-! ## Wrappers -/

/-- Options of a query that scores by functions. -/
structure ScoreOptions where
  scoreMode : Option String := none
  boostMode : Option String := none
  maxBoost : Option Double := none
  minScore : Option Double := none
  boost : Option Double := none
deriving DecidableEq, Inhabited, Repr

/-- A query around the whole former query. -/
inductive Wrapper where
  | functionScore (functions : List Value) (options : ScoreOptions)
  | constantScore (boost : Double)
deriving Repr

namespace Wrapper

/-- The name of the wrapping query. -/
def kind : Wrapper → String
  | functionScore .. => "function_score"
  | constantScore _ => "constant_score"

/-- The body of the wrapping query around the given one. -/
def body (inner : Value) : Wrapper → Value
  | functionScore functions options =>
    .record
      [("query", some inner), ("functions", some (.arr functions)),
       ("score_mode", options.scoreMode.map .str), ("boost_mode", options.boostMode.map .str),
       ("max_boost", options.maxBoost.map .ofDouble),
       ("min_score", options.minScore.map .ofDouble), ("boost", options.boost.map .ofDouble)]
  | constantScore boost => .obj [("filter", inner), ("boost", .ofDouble boost)]

end Wrapper

/-! ## Edits -/

/-- A change of the live document. -/
inductive Edit where
  /-- clauses for the end of a section -/
  | append (s : Section) (clauses : List Clause)
  /-- a bool query with its four sections -/
  | installBool
  | setMinimum (count : Nat)
  | wrap (wrapper : Wrapper)
  | replaceQuery (query : QueryRoot Clause)
  | reset
  | setOffset (offset : Nat)
  | setSize (size : Nat)
  | addSort (spec : SortSpec)
  | setSource (filter : SourceFilter)
  | setHighlight (highlight : Highlight)
  | addHighlight (field : String) (options : Value)
  | setTrackTotalHits (track : Bool)
  | setMinScore (score : Double)
  | setSearchAfter (values : List Value)
  /-- an aggregation under a name, in the place of an earlier one of that name -/
  | attach (name : String) (spec : Value)
  /-- an aggregation under a name, as a child of one that is there -/
  | attachUnder (parent name : String) (spec : Value)

namespace Document

/-- Change the bool query, which is installed first. -/
def editBool (f : BoolQuery Clause → BoolQuery Clause) (d : Document) : Document :=
  let q := d.query.getD {}
  { d with query := some { q with bool := some (f (q.ensuredBool .raw)) } }

/-- The query as a wrapper or a clause takes it in. -/
def embeddable (d : Document) : QueryRoot Clause := (d.query.map QueryRoot.finalized).getD .matchAll

/-- The clauses that a merge takes over: those that must hold, scoring ones first. -/
def mergeable (d : Document) : List Clause :=
  match d.bool? with
  | some b => b.clauses .must ++ b.clauses .filter
  | none => []

/-- Wrap the whole query. -/
def wrapQuery (wrapper : Wrapper) (d : Document) : Document :=
  { d with query := some (.ofNamed wrapper.kind (wrapper.body d.embeddable.toValue)) }

/-- Highlight one more field, or give a highlighted one other options. -/
def addHighlight (field : String) (options : Value) (d : Document) : Document :=
  let h := d.highlight.getD {}
  { d with highlight := some { h with fields := h.fields.insert field options } }

/-! ## Aggregations -/

/-- The key of the child aggregations in a specification. -/
def childrenKey : String := "aggs"

/-- The child aggregations in a specification. A value that is no object holds none. -/
def children (spec : Object) : Object :=
  match spec.find? childrenKey with
  | some (.obj members) => members
  | _ => []

/-- A specification with one more child, in the place of an earlier one of that name. -/
def addChild (spec : Object) (name : String) (child : Value) : Object :=
  spec.insert childrenKey (.obj ((children spec).insert name child))

/-- Attach an aggregation at the top. -/
def attach (name : String) (spec : Value) (d : Document) : Document :=
  { d with aggregations := some ((d.aggregations.getD []).insert name spec) }

/-- The specification of an aggregation at the top. -/
def aggregation? (d : Document) (name : String) : Option Object :=
  (d.aggregations.bind (·.find? name)).bind Value.object?

/-- Attach a child to an aggregation at the top, if there is one of that name. -/
def attachUnder? (parent name : String) (spec : Value) (d : Document) : Option Document :=
  (d.aggregation? parent).map fun p => d.attach parent (.obj (addChild p name spec))

end Document

/-! ## What edits do -/

/-- The document after an edit. -/
def Edit.apply (d : Document) : Edit → Checked Document
  | append s clauses => .ok (d.editBool (·.append .raw s clauses))
  | installBool => .ok (d.editBool id)
  | setMinimum count => .ok (d.editBool ({ · with minimumShouldMatch := some (.nat count) }))
  | wrap wrapper => .ok (d.wrapQuery wrapper)
  | replaceQuery query => .ok { d with query := some query }
  | reset => .ok .fresh
  | setOffset offset => .ok { d with offset := some offset }
  | setSize size => .ok { d with size := some size }
  | addSort spec => .ok { d with sort := some (d.sort.getD [] ++ [spec]) }
  | setSource filter => .ok { d with source := some filter }
  | setHighlight highlight => .ok { d with highlight := some highlight }
  | addHighlight field options => .ok (d.addHighlight field options)
  | setTrackTotalHits track => .ok { d with trackTotalHits := some track }
  | setMinScore score => .ok { d with minScore := some score }
  | setSearchAfter values => .ok { d with searchAfter := some values }
  | attach name spec => .ok (d.attach name spec)
  | attachUnder parent name spec =>
    match d.attachUnder? parent name spec with
    | some d => .ok d
    | none => .error (Fault.reject (.aggregationMissing parent) parent "sub_aggregate")

end SearchRequest

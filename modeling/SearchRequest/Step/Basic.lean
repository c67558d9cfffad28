import SearchRequest.Call.Aggregation
import SearchRequest.Call.Clause
import SearchRequest.Document.Edit

/-!
# Steps of a builder

A step is one call of a builder with its arguments. Some calls take a callback that works on a
sub-builder of its own; such a callback is given as the list of its steps, so that steps nest.

This module tells the outcome of a step in one piece, as a new document or a rejection. How a step
gets there, check by check and write by write, is in `SearchRequest.Step.Action`.

* `Step.edit` — what a step asks for, once its arguments have passed: an `Edit`. It depends on the
  step and the configuration alone, never on the document that the edit is meant for.
* `Step.runAll` — steps in a row, each on the document that the one before it left. The first
  rejection ends the row.
* `Step.apply` — a step on a document: its edit, applied.

A callback runs on a fresh document under the same configuration. A merge takes the clauses of its
`must` and `filter` sections over; an embedding takes its whole query, finalized.
-/

namespace SearchRequest

/-! ## Embeddings -/

/-- A call that embeds the query of a callback in one clause. -/
inductive Embedding where
  /-- objects nested under a path -/
  | nested
  /-- documents with a child of some type -/
  | hasChild
  /-- documents with a parent of some type -/
  | hasParent
deriving DecidableEq, Repr

namespace Embedding

/-- The name of an embedding. -/
def name : Embedding → String
  | nested => "nested"
  | hasChild => "has_child"
  | hasParent => "has_parent"

/-- The path or the type of an embedding is not blank. -/
def check (label : String) : Embedding → Checked Unit
  | nested => Argument.fieldName label "nested"
  | hasChild => Argument.nonBlank label "type" "has_child"
  | hasParent => Argument.nonBlank label "parent_type" "has_parent"

/-- The clause that embeds a query. -/
def clause (label : String) (query : QueryRoot Clause) : Embedding → Clause
  | nested => .nested label query
  | hasChild => .hasChild label query
  | hasParent => .hasParent label query

/-- The label passes exactly when it is not blank. -/
@[simp] theorem check_eq_ok_iff {e : Embedding} {label : String} {u : Unit} :
    e.check label = .ok u ↔ isBlank label = false := by
  cases e <;> simp [check]

end Embedding

/-! ## Checks of the remaining calls -/

namespace Wrapper

/-- The numbers of a wrapper are sound, and its functions are objects. -/
def check : Wrapper → Checked Unit
  | functionScore functions options => do
    match functions.findIdx? fun f => !f.isObject with
    | some i => .error (Fault.reject (.elementNotObject "functions" i) "functions" "function_score")
    | none => pure ()
    Argument.optional (Argument.boost · "function_score") options.maxBoost
    Argument.optional (Argument.boost · "function_score") options.boost
    Argument.optional (Argument.finite · "min_score" "function_score") options.minScore
  | constantScore boost => Argument.boost boost "constant_score"

end Wrapper

/-- Fields to highlight with no options of their own. -/
def plainHighlight (fields : List String) : Object :=
  fields.foldl (fun done field => done.insert field (.obj [])) []

/-! ## Steps -/

/-- One call of a builder, with its arguments. -/
inductive Step where
  | clause (call : ClauseCall)
  | should (steps : List Step)
  | mustNot (steps : List Step)
  | embed (link : Embedding) (label : String) (steps : List Step)
  | minimumShouldMatch (count : Nat)
  | ensureBoolQuery
  | wrap (wrapper : Wrapper)
  | setQuery (query : Value)
  | matchAll
  | reset
  | offset (given : Int)
  | size (given : Int)
  | sort (field order : String)
  | sortWith (field : String) (options : SortOptions)
  | source (fields : List String)
  | sourceEnabled (all : Bool)
  | highlight (fields : List String) (options : HighlightOptions)
  | highlightField (field : String) (options : Value)
  | trackTotalHits (track : Bool)
  | minScore (score : Double)
  | searchAfter (values : List Value)
  | aggregate (call : AggregationCall)
  | subAggregate (parent name : String) (spec : Value)

namespace Step

/-- The name of a step, which its own rejections carry. -/
def name : Step → String
  | clause call => call.name
  | should _ => "should"
  | mustNot _ => "must_not"
  | embed link _ _ => link.name
  | minimumShouldMatch _ => "minimum_should_match"
  | ensureBoolQuery => "ensure_bool_query"
  | wrap wrapper => wrapper.kind
  | setQuery _ => "set_query"
  | matchAll => "match_all"
  | reset => "reset"
  | offset _ => "from"
  | size _ => "size"
  | sort .. => "sort"
  | sortWith .. => "sort_with"
  | source _ => "source"
  | sourceEnabled _ => "source_enabled"
  | highlight .. => "highlight"
  | highlightField .. => "highlight_field"
  | trackTotalHits _ => "track_total_hits"
  | minScore _ => "min_score"
  | searchAfter _ => "search_after"
  | aggregate call => call.callName
  | subAggregate .. => "sub_aggregate"

mutual

/-- The edit that a step asks for, or what is wrong with its arguments. -/
def edit (config : Config) : Step → Checked Edit
  | clause call => (call.check config).map fun r => .append r.1 [r.2]
  | should steps => (runAll config steps .fresh).map fun d => .append .should d.mergeable
  | mustNot steps => (runAll config steps .fresh).map fun d => .append .mustNot d.mergeable
  | embed link label steps => do
    link.check label
    let d ← runAll config steps .fresh
    return .append .must [link.clause label d.embeddable]
  | minimumShouldMatch count => return .setMinimum count
  | ensureBoolQuery => return .installBool
  | wrap wrapper => do
    wrapper.check
    return .wrap wrapper
  | setQuery query => (QueryRoot.adopt .raw query).map .replaceQuery
  | matchAll => return .replaceQuery .matchAll
  | reset => return .reset
  | offset given => (Argument.offset given "from").map .setOffset
  | size given => (Argument.size given config.maxResultWindow "size").map .setSize
  | sort field order => do
    Argument.fieldName field "sort"
    let order ← SortOrder.parse order "sort"
    return .addSort (.byField field order)
  | sortWith field options => do
    Argument.fieldName field "sort_with"
    Argument.optional (Argument.nonBlank · "mode" "sort_with") options.mode
    return .addSort (.detailed field options)
  | source fields => do
    Argument.stringList fields "fields" "source"
    return .setSource (.fields fields)
  | sourceEnabled all => return .setSource (.enabled all)
  | highlight fields options => do
    Argument.stringList fields "fields" "highlight"
    return .setHighlight ⟨plainHighlight fields, options⟩
  | highlightField field options => do
    Argument.fieldName field "highlight_field"
    require options.isObject (.highlightNotObject field) field "highlight_field"
    return .addHighlight field options
  | trackTotalHits track => return .setTrackTotalHits track
  | minScore score => do
    Argument.finite score "min_score" "min_score"
    return .setMinScore score
  | searchAfter values => do
    Argument.nonEmpty values "search_after" "search_after"
    return .setSearchAfter values
  | aggregate call => call.check.map fun r => .attach r.1 r.2
  | subAggregate parent name spec => do
    Argument.aggregationName parent "sub_aggregate"
    Argument.aggregationName name "sub_aggregate"
    Argument.aggregationSpec spec name "sub_aggregate"
    return .attachUnder parent name spec
termination_by structural s => s

/-- Steps in a row, up to the first rejection. -/
def runAll (config : Config) : List Step → Document → Checked Document
  | [], d => .ok d
  | s :: rest, d => do
    let e ← edit config s
    let d ← e.apply d
    runAll config rest d
termination_by structural steps => steps

end

/-- A step on a document. -/
def apply (config : Config) (d : Document) (s : Step) : Checked Document :=
  (s.edit config).bind (Edit.apply d)

@[simp] theorem runAll_nil (config : Config) (d : Document) : runAll config [] d = .ok d := rfl

theorem runAll_cons (config : Config) (s : Step) (rest : List Step) (d : Document) :
    runAll config (s :: rest) d = (s.apply config d).bind (runAll config rest) := by
  rw [runAll, apply]
  cases edit config s <;> rfl

end Step

end SearchRequest

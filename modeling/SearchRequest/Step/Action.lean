import SearchRequest.Action
import SearchRequest.Step.Basic

/-!
# What steps do to a builder

`Step.action` is a step as it is carried out: its checks one after the other, each in the name of
the call that asks, and its writes. `Step.actions` are steps in a row. A callback is such a row, on
a builder of its own.

What comes of a step is told in one piece by `Step.apply`; `SearchRequest.Proofs.Actions` shows that
it is what the action comes to.
-/

namespace SearchRequest

open SearchRequest.Action

/-! ## Clauses -/

namespace ClauseCall

/-- Look for a text in a field, perhaps with an operator. -/
def addMatch (context field : String) (query : Value) (operator : Option MatchOperator) :
    Action Unit := do
  Argument.fieldName field context
  Argument.queryValue query field context
  push .must (.textMatch field query operator)

/-- What a call that adds a clause does. -/
def action : ClauseCall → Action Unit
  | textMatch field query => addMatch "match_query" field query none
  | textMatchWith field query operator => addMatch "match_query_with" field query (some operator)
  | matchPhrase field query slop => do
    Argument.fieldName field "match_phrase"
    Argument.queryValue query field "match_phrase"
    push .must (.matchPhrase field query slop)
  | multiMatch fields query strategy => do
    Argument.stringList fields "fields" "multi_match"
    Argument.queryValue query "query" "multi_match"
    let strategy ← MatchStrategy.parse strategy "multi_match"
    push .must (.multiMatch fields query strategy)
  | wildcard field pattern => do
    Argument.fieldName field "wildcard"
    Argument.queryValue pattern field "wildcard"
    push .must (.wildcard field pattern)
  | startsWith field value => do
    Argument.fieldName field "prefix"
    Argument.queryValue value field "prefix"
    push .must (.startsWith field value)
  | fuzzy field value options => do
    Argument.fieldName field "fuzzy"
    Argument.queryValue value field "fuzzy"
    Argument.optional (Argument.boost · "fuzzy") options.boost
    push .must (.fuzzy field value options)
  | regexp field pattern => do
    Argument.fieldName field "regexp"
    Argument.queryValue pattern field "regexp"
    push .must (.regexp field pattern)
  | queryString query options => do
    Argument.queryValue query "query" "query_string"
    Argument.optional (Argument.fieldName · "query_string") options.defaultField
    Argument.optional (Argument.stringList · "fields" "query_string") options.fields
    push .must (.queryString query options)
  | simpleQueryString query => do
    Argument.queryValue query "query" "simple_query_string"
    push .must (.simpleQueryString query none)
  | simpleQueryStringIn query fields => do
    Argument.queryValue query "query" "simple_query_string_in"
    Argument.stringList fields "fields" "simple_query_string_in"
    push .must (.simpleQueryString query (some fields))
  | script source params => do
    Argument.queryValue source "source" "script"
    push .must (.script source params)
  | moreLikeThis fields like options => do
    Argument.stringList fields "fields" "more_like_this"
    Argument.queryValue like "like" "more_like_this"
    push .must (.moreLikeThis fields like options)
  | term field value => do
    Argument.fieldName field "term"
    Argument.queryValue value field "term"
    let field := (← get).config.keywordField field
    push .filter (.term field value)
  | terms field values => do
    Argument.fieldName field "terms"
    Argument.termsValues values field "terms"
    push .filter (.terms field values)
  | range field spec => do
    Argument.fieldName field "range"
    let bounds ← Argument.range spec field "range"
    push .filter (.range field bounds)
  | fieldExists field => do
    Argument.fieldName field "exists"
    push .filter (.fieldExists field)
  | geoDistance field point distance => do
    Argument.fieldName field "geo_distance"
    point.check "geo_distance"
    Argument.distance distance field "geo_distance"
    push .filter (.geoDistance field point (trimmed distance))
  | geoBoundingBox field topLeft bottomRight => do
    Argument.fieldName field "geo_bounding_box"
    topLeft.check "geo_bounding_box"
    bottomRight.check "geo_bounding_box"
    require (!topLeft.lat.lt bottomRight.lat) .boxUpsideDown field "geo_bounding_box"
    push .filter (.geoBoundingBox field topLeft bottomRight)
  | geoPolygon field points => do
    Argument.fieldName field "geo_polygon"
    require (3 ≤ points.length) (.polygonTooShort points.length) field "geo_polygon"
    GeoPoint.checkAll "geo_polygon" points
    push .filter (.geoPolygon field points)
  | raw clause => push .must (.raw clause)
  | rawIn target clause => push target (.raw clause)

end ClauseCall

/-! ## Aggregations -/

namespace AggregationCall

/-- The general call, which most of the others end with. -/
def aggregate (name : String) (spec : Value) : Action Unit := do
  Argument.aggregationName name "aggregate"
  Argument.aggregationSpec spec name "aggregate"
  insertAggregation name spec

/-- A metric over one field. -/
def insertMetric (context name kind field : String) : Action Unit := do
  Argument.aggregationName name context
  Argument.fieldName field context
  insertAggregation name (.single kind (.single "field" (.str field)))

/-- What a call that attaches an aggregation does. -/
def action : AggregationCall → Action Unit
  | general name spec => aggregate name spec
  | terms name field size => do
    Argument.aggregationName name "terms_agg"
    Argument.fieldName field "terms_agg"
    let size ← Argument.positive size "size" "terms_agg"
    aggregate name (.single "terms" (.obj [("field", .str field), ("size", .nat size)]))
  | dateHistogram name field interval => do
    Argument.aggregationName name "date_histogram_agg"
    Argument.fieldName field "date_histogram_agg"
    Argument.nonBlank interval "interval" "date_histogram_agg"
    let interval := trimmed interval
    aggregate name (.single "date_histogram"
      (.obj [("field", .str field), (intervalKey interval, .str interval)]))
  | histogram name field interval => do
    Argument.aggregationName name "histogram_agg"
    Argument.fieldName field "histogram_agg"
    let interval ← Argument.positive interval "interval" "histogram_agg"
    aggregate name (.single "histogram" (.obj [("field", .str field), ("interval", .nat interval)]))
  | range name field ranges => do
    Argument.aggregationName name "range_agg"
    Argument.fieldName field "range_agg"
    Argument.nonEmpty ranges "ranges" "range_agg"
    aggregate name (.single "range" (.obj [("field", .str field), ("ranges", .arr ranges)]))
  | filters name clauses => do
    Argument.aggregationName name "filters_agg"
    require (!clauses.isEmpty) .filtersEmpty "filters" "filters_agg"
    aggregate name (.single "filters" (.single "filters" (.obj clauses)))
  | nested name path aggs => do
    Argument.aggregationName name "nested_agg"
    Argument.fieldName path "nested_agg"
    aggregate name (.obj [("nested", .single "path" (.str path)), ("aggs", .obj aggs)])
  | metric .avg name field => insertMetric "avg_agg" name "avg" field
  | metric .sum name field => insertMetric "sum_agg" name "sum" field
  | metric .min name field => insertMetric "min_agg" name "min" field
  | metric .max name field => insertMetric "max_agg" name "max" field
  | metric .cardinality name field => insertMetric "cardinality_agg" name "cardinality" field
  | metric .valueCount name field => insertMetric "value_count_agg" name "value_count" field
  | metric .stats name field => insertMetric "stats_agg" name "stats" field
  | percentiles name field percents => do
    Argument.aggregationName name "percentiles_agg"
    Argument.fieldName field "percentiles_agg"
    Argument.optional (percentages · "percentiles_agg") percents
    aggregate name (.single "percentiles" (.record
      [("field", some (.str field)),
       ("percents", percents.map fun ps => .arr (ps.map .ofDouble))]))

end AggregationCall

/-! ## Steps -/

namespace Step

mutual

/-- What a step does. -/
def action : Step → Action Unit
  | clause call => call.action
  | should steps => do
    let clauses ← subClauses (actions steps)
    extend .should clauses
  | mustNot steps => do
    let clauses ← subClauses (actions steps)
    extend .mustNot clauses
  | embed .nested path steps => do
    Argument.fieldName path "nested"
    let query ← subQuery (actions steps)
    push .must (.nested path query)
  | embed .hasChild type steps => do
    Argument.nonBlank type "type" "has_child"
    let query ← subQuery (actions steps)
    push .must (.hasChild type query)
  | embed .hasParent type steps => do
    Argument.nonBlank type "parent_type" "has_parent"
    let query ← subQuery (actions steps)
    push .must (.hasParent type query)
  | minimumShouldMatch count =>
    write (·.editBool ({ · with minimumShouldMatch := some (.nat count) }))
  | ensureBoolQuery => write (·.editBool id)
  | wrap (.functionScore functions options) => do
    match functions.findIdx? fun f => !f.isObject with
    | some i => throw (Fault.reject (.elementNotObject "functions" i) "functions" "function_score")
    | none => pure ()
    Argument.optional (Argument.boost · "function_score") options.maxBoost
    Argument.optional (Argument.boost · "function_score") options.boost
    Argument.optional (Argument.finite · "min_score" "function_score") options.minScore
    let inner ← takeQuery
    putQuery (.ofNamed "function_score" ((Wrapper.functionScore functions options).body inner))
  | wrap (.constantScore boost) => do
    Argument.boost boost "constant_score"
    let inner ← takeQuery
    putQuery (.ofNamed "constant_score" ((Wrapper.constantScore boost).body inner))
  | setQuery query => do
    let query ← QueryRoot.adopt .raw query
    putQuery query
  | matchAll => putQuery .matchAll
  | reset => write fun _ => .fresh
  | offset given => do
    let offset ← Argument.offset given "from"
    write ({ · with offset := some offset })
  | size given => do
    let size ← Argument.size given (← get).config.maxResultWindow "size"
    write ({ · with size := some size })
  | sort field order => do
    Argument.fieldName field "sort"
    let order ← SortOrder.parse order "sort"
    pushSort (.byField field order)
  | sortWith field options => do
    Argument.fieldName field "sort_with"
    Argument.optional (Argument.nonBlank · "mode" "sort_with") options.mode
    pushSort (.detailed field options)
  | source fields => do
    Argument.stringList fields "fields" "source"
    write ({ · with source := some (.fields fields) })
  | sourceEnabled all => write ({ · with source := some (.enabled all) })
  | highlight fields options => do
    Argument.stringList fields "fields" "highlight"
    write ({ · with highlight := some ⟨plainHighlight fields, options⟩ })
  | highlightField field options => do
    Argument.fieldName field "highlight_field"
    require options.isObject (.highlightNotObject field) field "highlight_field"
    write (·.addHighlight field options)
  | trackTotalHits track => write ({ · with trackTotalHits := some track })
  | minScore score => do
    Argument.finite score "min_score" "min_score"
    write ({ · with minScore := some score })
  | searchAfter values => do
    Argument.nonEmpty values "search_after" "search_after"
    write ({ · with searchAfter := some values })
  | aggregate call => call.action
  | subAggregate parent name spec => do
    Argument.aggregationName parent "sub_aggregate"
    Argument.aggregationName name "sub_aggregate"
    Argument.aggregationSpec spec name "sub_aggregate"
    match (← get).document.aggregation? parent with
    | some own => insertAggregation parent (.obj (Document.addChild own name spec))
    | none => throw (Fault.reject (.aggregationMissing parent) parent "sub_aggregate")
termination_by structural s => s

/-- Steps in a row, up to the first that is rejected. What the others did stays. -/
def actions : List Step → Action Unit
  | [] => return
  | s :: rest => do
    action s
    actions rest
termination_by structural steps => steps

end

end Step

end SearchRequest

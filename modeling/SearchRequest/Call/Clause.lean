import SearchRequest.Argument.Distance
import SearchRequest.Argument.Range
import SearchRequest.Config
import SearchRequest.Query.Clause

/-!
# Calls that add one clause

`ClauseCall` lists the calls of a builder that check their arguments and then add exactly one
clause. Analysed text, scripts and raw clauses go to `must`, exact conditions to `filter`; a raw
clause can be sent to any section.

`ClauseCall.check` tells what comes of such a call: the section and the clause, or the first
argument that is refused. It depends on the configuration through the keyword suffix alone.
-/

namespace SearchRequest

/-- A call that adds one clause, with its arguments. -/
inductive ClauseCall where
  | textMatch (field : String) (query : Value)
  | textMatchWith (field : String) (query : Value) (operator : MatchOperator)
  | matchPhrase (field : String) (query : Value) (slop : Option Nat)
  | multiMatch (fields : List String) (query : Value) (strategy : Option String)
  | wildcard (field : String) (pattern : Value)
  | startsWith (field : String) (value : Value)
  | fuzzy (field : String) (value : Value) (options : FuzzyOptions)
  | regexp (field : String) (pattern : Value)
  | queryString (query : Value) (options : QueryStringOptions)
  | simpleQueryString (query : Value)
  | simpleQueryStringIn (query : Value) (fields : List String)
  | script (source : Value) (params : Option Object)
  | moreLikeThis (fields : List String) (like : Value) (options : SimilarityOptions)
  | term (field : String) (value : Value)
  | terms (field : String) (values : List Value)
  | range (field : String) (spec : Value)
  | fieldExists (field : String)
  | geoDistance (field : String) (point : GeoPoint) (distance : String)
  | geoBoundingBox (field : String) (topLeft bottomRight : GeoPoint)
  | geoPolygon (field : String) (points : List GeoPoint)
  | raw (clause : Value)
  | rawIn (target : Section) (clause : Value)

namespace ClauseCall

/-- The name of a call, which its rejections carry. -/
def name : ClauseCall → String
  | textMatch .. => "match_query"
  | textMatchWith .. => "match_query_with"
  | matchPhrase .. => "match_phrase"
  | multiMatch .. => "multi_match"
  | wildcard .. => "wildcard"
  | startsWith .. => "prefix"
  | fuzzy .. => "fuzzy"
  | regexp .. => "regexp"
  | queryString .. => "query_string"
  | simpleQueryString _ => "simple_query_string"
  | simpleQueryStringIn .. => "simple_query_string_in"
  | script .. => "script"
  | moreLikeThis .. => "more_like_this"
  | term .. => "term"
  | terms .. => "terms"
  | range .. => "range"
  | fieldExists _ => "exists"
  | geoDistance .. => "geo_distance"
  | geoBoundingBox .. => "geo_bounding_box"
  | geoPolygon .. => "geo_polygon"
  | raw _ => "raw"
  | rawIn .. => "raw_in"

/-- A field name and a value to look for in that field. -/
def fieldAndValue (field : String) (value : Value) (context : String) : Checked Unit := do
  Argument.fieldName field context
  Argument.queryValue value field context

/-- The section and the clause of a call, or what is wrong with its arguments. -/
def check (config : Config) : ClauseCall → Checked (Section × Clause)
  | textMatch field query => do
    fieldAndValue field query "match_query"
    return (.must, .textMatch field query none)
  | textMatchWith field query operator => do
    fieldAndValue field query "match_query_with"
    return (.must, .textMatch field query (some operator))
  | matchPhrase field query slop => do
    fieldAndValue field query "match_phrase"
    return (.must, .matchPhrase field query slop)
  | multiMatch fields query strategy => do
    Argument.stringList fields "fields" "multi_match"
    Argument.queryValue query "query" "multi_match"
    let strategy ← MatchStrategy.parse strategy "multi_match"
    return (.must, .multiMatch fields query strategy)
  | wildcard field pattern => do
    fieldAndValue field pattern "wildcard"
    return (.must, .wildcard field pattern)
  | startsWith field value => do
    fieldAndValue field value "prefix"
    return (.must, .startsWith field value)
  | fuzzy field value options => do
    fieldAndValue field value "fuzzy"
    Argument.optional (Argument.boost · "fuzzy") options.boost
    return (.must, .fuzzy field value options)
  | regexp field pattern => do
    fieldAndValue field pattern "regexp"
    return (.must, .regexp field pattern)
  | queryString query options => do
    Argument.queryValue query "query" "query_string"
    Argument.optional (Argument.fieldName · "query_string") options.defaultField
    Argument.optional (Argument.stringList · "fields" "query_string") options.fields
    return (.must, .queryString query options)
  | simpleQueryString query => do
    Argument.queryValue query "query" "simple_query_string"
    return (.must, .simpleQueryString query none)
  | simpleQueryStringIn query fields => do
    Argument.queryValue query "query" "simple_query_string_in"
    Argument.stringList fields "fields" "simple_query_string_in"
    return (.must, .simpleQueryString query (some fields))
  | script source params => do
    Argument.queryValue source "source" "script"
    return (.must, .script source params)
  | moreLikeThis fields like options => do
    Argument.stringList fields "fields" "more_like_this"
    Argument.queryValue like "like" "more_like_this"
    return (.must, .moreLikeThis fields like options)
  | term field value => do
    fieldAndValue field value "term"
    return (.filter, .term (config.keywordField field) value)
  | terms field values => do
    Argument.fieldName field "terms"
    Argument.termsValues values field "terms"
    return (.filter, .terms field values)
  | range field spec => do
    Argument.fieldName field "range"
    let bounds ← Argument.range spec field "range"
    return (.filter, .range field bounds)
  | fieldExists field => do
    Argument.fieldName field "exists"
    return (.filter, .fieldExists field)
  | geoDistance field point distance => do
    Argument.fieldName field "geo_distance"
    point.check "geo_distance"
    Argument.distance distance field "geo_distance"
    return (.filter, .geoDistance field point (trimmed distance))
  | geoBoundingBox field topLeft bottomRight => do
    Argument.fieldName field "geo_bounding_box"
    topLeft.check "geo_bounding_box"
    bottomRight.check "geo_bounding_box"
    require (!topLeft.lat.lt bottomRight.lat) .boxUpsideDown field "geo_bounding_box"
    return (.filter, .geoBoundingBox field topLeft bottomRight)
  | geoPolygon field points => do
    Argument.fieldName field "geo_polygon"
    require (3 ≤ points.length) (.polygonTooShort points.length) field "geo_polygon"
    GeoPoint.checkAll "geo_polygon" points
    return (.filter, .geoPolygon field points)
  | raw clause => return (.must, .raw clause)
  | rawIn target clause => return (target, .raw clause)

end ClauseCall

end SearchRequest

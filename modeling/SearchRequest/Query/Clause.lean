import SearchRequest.Query.GeoPoint
import SearchRequest.Query.QueryRoot

/-!
# Clauses

A clause is one condition of a query. There is one constructor for each kind that a builder makes,
and `raw` for a clause given as JSON. Three kinds hold a query of their own, so that clauses and
query roots nest.

* `Clause.kind` — the name of the kind, the one key under which a clause is written.
* `Clause.toValue` — a clause as JSON. The functions beside it follow the nesting; the lemmas
  `rootValues_eq` to `clauseValues_eq` say that they only apply `toValue` to every clause, so that a
  query is written by `QueryRoot.toValue q = (q.map Clause.toValue).render`.
-/

namespace SearchRequest

/-! ## Options -/

/-- How the terms of an analysed text combine. -/
inductive MatchOperator where
  /-- all terms match -/
  | and
  /-- some term matches -/
  | or
deriving DecidableEq, Repr

/-- The token of an operator. -/
def MatchOperator.text : MatchOperator → String
  | and => "and"
  | or => "or"

/-- The operator with the given token. -/
def MatchOperator.ofText? (token : String) : Option MatchOperator :=
  [MatchOperator.and, .or].find? fun o => o.text == token

/-- The strategies of a match over several fields. -/
inductive MatchStrategy where
  | bestFields
  | mostFields
  | crossFields
  | phrase
  | phrasePrefix
  | boolPrefix
deriving DecidableEq, Repr

namespace MatchStrategy

/-- The strategies in their order. -/
def all : List MatchStrategy :=
  [bestFields, mostFields, crossFields, phrase, phrasePrefix, boolPrefix]

/-- The token of a strategy. -/
def text : MatchStrategy → String
  | bestFields => "best_fields"
  | mostFields => "most_fields"
  | crossFields => "cross_fields"
  | phrase => "phrase"
  | phrasePrefix => "phrase_prefix"
  | boolPrefix => "bool_prefix"

/-- The strategy with the given token. -/
def ofText? (token : String) : Option MatchStrategy := all.find? fun s => s.text == token

/-- The strategy that an argument names; without one the backend decides. -/
def parse (given : Option String) (context : String) : Checked (Option MatchStrategy) :=
  match given with
  | none => .ok none
  | some token =>
    match ofText? token with
    | some s => .ok (some s)
    | none => .error (Fault.reject (.strategyUnknown token (all.map text)) "type" context)

end MatchStrategy

/-- Options of a fuzzy clause. -/
structure FuzzyOptions where
  /-- the edit distance, such as `"AUTO"` or `2` -/
  fuzziness : Option Value := none
  boost : Option Double := none
deriving Inhabited, Repr

/-- Options of a query string. -/
structure QueryStringOptions where
  defaultField : Option String := none
  fields : Option (List String) := none
  defaultOperator : Option MatchOperator := none
deriving DecidableEq, Inhabited, Repr

/-- Options of a search for similar documents. -/
structure SimilarityOptions where
  minTermFreq : Option Nat := none
  maxQueryTerms : Option Nat := none
  minDocFreq : Option Nat := none
deriving DecidableEq, Inhabited, Repr

/-! ## Clauses -/

/-- A condition of a query. -/
inductive Clause where
  | textMatch (field : String) (query : Value) (operator : Option MatchOperator)
  | matchPhrase (field : String) (query : Value) (slop : Option Nat)
  | multiMatch (fields : List String) (query : Value) (strategy : Option MatchStrategy)
  | term (field : String) (value : Value)
  | terms (field : String) (values : List Value)
  | range (field : String) (bounds : Object)
  | fieldExists (field : String)
  | wildcard (field : String) (value : Value)
  | startsWith (field : String) (value : Value)
  | fuzzy (field : String) (value : Value) (options : FuzzyOptions)
  | regexp (field : String) (value : Value)
  | queryString (query : Value) (options : QueryStringOptions)
  | simpleQueryString (query : Value) (fields : Option (List String))
  | geoDistance (field : String) (point : GeoPoint) (distance : String)
  | geoBoundingBox (field : String) (topLeft bottomRight : GeoPoint)
  | geoPolygon (field : String) (points : List GeoPoint)
  | nested (path : String) (query : QueryRoot Clause)
  | hasChild (childType : String) (query : QueryRoot Clause)
  | hasParent (parentType : String) (query : QueryRoot Clause)
  | script (source : Value) (params : Option Object)
  | moreLikeThis (fields : List String) (like : Value) (options : SimilarityOptions)
  /-- a clause given as JSON, kept as it is -/
  | raw (value : Value)
deriving Inhabited

namespace Clause

/-- The kind of a clause: the key under which it is written. A raw clause has the kind of its first
key, and the kind `raw` without one. -/
def kind : Clause → String
  | textMatch .. => "match"
  | matchPhrase .. => "match_phrase"
  | multiMatch .. => "multi_match"
  | term .. => "term"
  | terms .. => "terms"
  | range .. => "range"
  | fieldExists _ => "exists"
  | wildcard .. => "wildcard"
  | startsWith .. => "prefix"
  | fuzzy .. => "fuzzy"
  | regexp .. => "regexp"
  | queryString .. => "query_string"
  | simpleQueryString .. => "simple_query_string"
  | geoDistance .. => "geo_distance"
  | geoBoundingBox .. => "geo_bounding_box"
  | geoPolygon .. => "geo_polygon"
  | nested .. => "nested"
  | hasChild .. => "has_child"
  | hasParent .. => "has_parent"
  | script .. => "script"
  | moreLikeThis .. => "more_like_this"
  | raw (.obj ((key, _) :: _)) => key
  | raw _ => "raw"

/-! ## Clauses as JSON -/

mutual

/-- A clause as JSON. -/
def toValue : Clause → Value
  | textMatch field query operator =>
    .single "match" (.single field (.record
      [("query", some query), ("operator", operator.map fun o => .str o.text)]))
  | matchPhrase field query slop =>
    .single "match_phrase" (.single field (.record
      [("query", some query), ("slop", slop.map .nat)]))
  | multiMatch fields query strategy =>
    .single "multi_match" (.record
      [("query", some query), ("fields", some (.strings fields)),
       ("type", strategy.map fun s => .str s.text)])
  | term field value => .single "term" (.single field value)
  | terms field values => .single "terms" (.single field (.arr values))
  | range field bounds => .single "range" (.single field (.obj bounds))
  | fieldExists field => .single "exists" (.single "field" (.str field))
  | wildcard field value => .single "wildcard" (.single field (.single "value" value))
  | startsWith field value => .single "prefix" (.single field (.single "value" value))
  | fuzzy field value options =>
    .single "fuzzy" (.single field (.record
      [("value", some value), ("fuzziness", options.fuzziness),
       ("boost", options.boost.map .ofDouble)]))
  | regexp field value => .single "regexp" (.single field (.single "value" value))
  | queryString query options =>
    .single "query_string" (.record
      [("query", some query), ("default_field", options.defaultField.map .str),
       ("fields", options.fields.map .strings),
       ("default_operator", options.defaultOperator.map fun o => .str o.text)])
  | simpleQueryString query fields =>
    .single "simple_query_string" (.record
      [("query", some query), ("fields", fields.map .strings)])
  | geoDistance field point distance =>
    .single "geo_distance" (.obj
      (Object.insert [("distance", .str distance)] field point.toValue))
  | geoBoundingBox field topLeft bottomRight =>
    .single "geo_bounding_box" (.single field (.obj
      [("top_left", topLeft.toValue), ("bottom_right", bottomRight.toValue)]))
  | geoPolygon field points =>
    .single "geo_polygon" (.single field (.single "points" (.arr (points.map GeoPoint.toValue))))
  | nested path query =>
    .single "nested" (.obj [("path", .str path), ("query", (rootValues query).render)])
  | hasChild childType query =>
    .single "has_child" (.obj [("type", .str childType), ("query", (rootValues query).render)])
  | hasParent parentType query =>
    .single "has_parent"
      (.obj [("parent_type", .str parentType), ("query", (rootValues query).render)])
  | script source params =>
    .single "script" (.single "script" (.record
      [("source", some source), ("params", params.map .obj)]))
  | moreLikeThis fields like options =>
    .single "more_like_this" (.record
      [("fields", some (.strings fields)), ("like", some like),
       ("min_term_freq", options.minTermFreq.map .nat),
       ("max_query_terms", options.maxQueryTerms.map .nat),
       ("min_doc_freq", options.minDocFreq.map .nat)])
  | raw value => value
termination_by structural c => c

/-- A root with its clauses as JSON. -/
def rootValues : QueryRoot Clause → QueryRoot Value
  | ⟨bool, named⟩ => ⟨boolValues? bool, named⟩
termination_by structural q => q

/-- A bool query, if there is one, with its clauses as JSON. -/
def boolValues? : Option (BoolQuery Clause) → Option (BoolQuery Value)
  | none => none
  | some b => some (boolValues b)
termination_by structural b? => b?

/-- A bool query with its clauses as JSON. -/
def boolValues : BoolQuery Clause → BoolQuery Value
  | ⟨must, filter, should, mustNot, minimum, extra⟩ =>
    ⟨sectionValues must, sectionValues filter, sectionValues should, sectionValues mustNot,
      minimum, extra⟩
termination_by structural b => b

/-- A section with its clauses as JSON. -/
def sectionValues : Option (List Clause) → Option (List Value)
  | none => none
  | some cs => some (clauseValues cs)
termination_by structural s => s

/-- Clauses as JSON. -/
def clauseValues : List Clause → List Value
  | [] => []
  | c :: rest => toValue c :: clauseValues rest
termination_by structural cs => cs

end

theorem clauseValues_eq (cs : List Clause) : clauseValues cs = cs.map toValue := by
  induction cs with
  | nil => rfl
  | cons c rest ih => rw [clauseValues, ih, List.map_cons]

theorem sectionValues_eq (s : Option (List Clause)) :
    sectionValues s = s.map (·.map toValue) := by
  cases s with
  | none => rfl
  | some cs => simp [sectionValues, clauseValues_eq]

theorem boolValues_eq (b : BoolQuery Clause) : boolValues b = b.map toValue := by
  cases b
  simp [boolValues, BoolQuery.map, sectionValues_eq]

theorem boolValues?_eq (b? : Option (BoolQuery Clause)) :
    boolValues? b? = b?.map (·.map toValue) := by
  cases b? with
  | none => rfl
  | some b => simp [boolValues?, boolValues_eq]

theorem rootValues_eq (q : QueryRoot Clause) : rootValues q = q.map toValue := by
  cases q
  simp [rootValues, QueryRoot.map, boolValues?_eq]

end Clause

/-! ## Queries as JSON -/

/-- A bool query as JSON. -/
def BoolQuery.toValue (b : BoolQuery Clause) : Value := (b.map Clause.toValue).render

/-- A query as JSON. -/
def QueryRoot.toValue (q : QueryRoot Clause) : Value := (q.map Clause.toValue).render

/-- A clause of the kind `nested` holds its query as the query itself is written. -/
theorem Clause.toValue_nested (path : String) (query : QueryRoot Clause) :
    (Clause.nested path query).toValue =
      .single "nested" (.obj [("path", .str path), ("query", query.toValue)]) := by
  rw [Clause.toValue, Clause.rootValues_eq]
  rfl

@[inherit_doc Clause.toValue_nested]
theorem Clause.toValue_hasChild (childType : String) (query : QueryRoot Clause) :
    (Clause.hasChild childType query).toValue =
      .single "has_child" (.obj [("type", .str childType), ("query", query.toValue)]) := by
  rw [Clause.toValue, Clause.rootValues_eq]
  rfl

@[inherit_doc Clause.toValue_nested]
theorem Clause.toValue_hasParent (parentType : String) (query : QueryRoot Clause) :
    (Clause.hasParent parentType query).toValue =
      .single "has_parent" (.obj [("parent_type", .str parentType), ("query", query.toValue)]) := by
  rw [Clause.toValue, Clause.rootValues_eq]
  rfl

end SearchRequest

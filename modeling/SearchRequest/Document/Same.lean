import SearchRequest.Document.Basic

/-!
# Agreement of documents

Two documents agree when they are built alike: a raw clause never agrees with a clause of a kind,
even where both are written alike, and an absent section never agrees with an empty one. The order
of an object's members does not count, and floating numbers are compared by value.
-/

namespace SearchRequest

/-- Both are absent, or both are present and agree. -/
def sameOption {α : Type} (same : α → α → Bool) : Option α → Option α → Bool
  | none, none => true
  | some a, some b => same a b
  | _, _ => false

/-- The lists agree item by item. -/
def sameList {α : Type} (same : α → α → Bool) : List α → List α → Bool
  | [], [] => true
  | a :: rest, b :: others => same a b && sameList same rest others
  | _, _ => false

/-- The options agree. -/
def FuzzyOptions.same (a b : FuzzyOptions) : Bool :=
  sameOption Value.same a.fuzziness b.fuzziness && sameOption Double.same a.boost b.boost

namespace Clause

mutual

/-- The clauses are of one kind, with parameters that agree. -/
def same : Clause → Clause → Bool
  | textMatch f q o, textMatch f' q' o' => f == f' && q.same q' && o == o'
  | matchPhrase f q s, matchPhrase f' q' s' => f == f' && q.same q' && s == s'
  | multiMatch fs q s, multiMatch fs' q' s' => fs == fs' && q.same q' && s == s'
  | term f v, term f' v' => f == f' && v.same v'
  | terms f vs, terms f' vs' => f == f' && sameList Value.same vs vs'
  | range f b, range f' b' => f == f' && b.same b'
  | fieldExists f, fieldExists f' => f == f'
  | wildcard f v, wildcard f' v' => f == f' && v.same v'
  | startsWith f v, startsWith f' v' => f == f' && v.same v'
  | fuzzy f v o, fuzzy f' v' o' => f == f' && v.same v' && o.same o'
  | regexp f v, regexp f' v' => f == f' && v.same v'
  | queryString q o, queryString q' o' => q.same q' && o == o'
  | simpleQueryString q fs, simpleQueryString q' fs' => q.same q' && fs == fs'
  | geoDistance f p d, geoDistance f' p' d' => f == f' && p.same p' && d == d'
  | geoBoundingBox f p q, geoBoundingBox f' p' q' => f == f' && p.same p' && q.same q'
  | geoPolygon f ps, geoPolygon f' ps' => f == f' && sameList GeoPoint.same ps ps'
  | nested p q, nested p' q' => p == p' && sameRoot q q'
  | hasChild t q, hasChild t' q' => t == t' && sameRoot q q'
  | hasParent t q, hasParent t' q' => t == t' && sameRoot q q'
  | script s ps, script s' ps' => s.same s' && sameOption Object.same ps ps'
  | moreLikeThis fs l o, moreLikeThis fs' l' o' => fs == fs' && l.same l' && o == o'
  | raw v, raw v' => v.same v'
  | _, _ => false
termination_by structural c => c

/-- The roots agree. -/
def sameRoot : QueryRoot Clause → QueryRoot Clause → Bool
  | ⟨bool, named⟩, other => sameBool? bool other.bool && named.same other.named
termination_by structural q => q

/-- Both bool queries are absent, or they agree. -/
def sameBool? : Option (BoolQuery Clause) → Option (BoolQuery Clause) → Bool
  | none, none => true
  | some b, some other => sameBool b other
  | _, _ => false
termination_by structural b? => b?

/-- The bool queries agree section by section. -/
def sameBool : BoolQuery Clause → BoolQuery Clause → Bool
  | ⟨must, filter, should, mustNot, minimum, extra⟩, other =>
    sameSection must other.must && sameSection filter other.filter &&
      sameSection should other.should && sameSection mustNot other.mustNot &&
      sameOption Value.same minimum other.minimumShouldMatch && extra.same other.extra
termination_by structural b => b

/-- Both sections are absent, or they agree. -/
def sameSection : Option (List Clause) → Option (List Clause) → Bool
  | none, none => true
  | some cs, some others => sameClauses cs others
  | _, _ => false
termination_by structural s => s

/-- The clauses agree one by one. -/
def sameClauses : List Clause → List Clause → Bool
  | [], [] => true
  | c :: rest, d :: others => same c d && sameClauses rest others
  | _, _ => false
termination_by structural cs => cs

end

end Clause

/-- The options agree. -/
def SortOptions.same (a b : SortOptions) : Bool :=
  a.order == b.order && a.mode == b.mode && sameOption Value.same a.missing b.missing &&
    a.unmappedType == b.unmappedType

/-- The sort entries agree. -/
def SortSpec.same : SortSpec → SortSpec → Bool
  | byField f o, byField f' o' => f == f' && o == o'
  | detailed f o, detailed f' o' => f == f' && o.same o'
  | raw v, raw v' => v.same v'
  | _, _ => false

/-- The highlights agree. -/
def Highlight.same (a b : Highlight) : Bool := a.fields.same b.fields && a.options == b.options

/-- The documents agree part by part. -/
def Document.same (a b : Document) : Bool :=
  a.offset == b.offset && a.size == b.size && sameOption Clause.sameRoot a.query b.query &&
    sameOption (sameList SortSpec.same) a.sort b.sort && a.source == b.source &&
    sameOption Object.same a.aggregations b.aggregations &&
    sameOption Highlight.same a.highlight b.highlight &&
    a.trackTotalHits == b.trackTotalHits && sameOption Double.same a.minScore b.minScore &&
    sameOption (sameList Value.same) a.searchAfter b.searchAfter

end SearchRequest

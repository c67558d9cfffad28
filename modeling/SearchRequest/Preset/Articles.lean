import SearchRequest.Preset.Window
import SearchRequest.Step.Basic

/-!
# Article search

Calls for articles and pages with the fields `title`, `summary`, `body`, `author`, `tags`, `status`
and `published_at`. Each call stands for one step of a builder.
-/

namespace SearchRequest

/-- A call of an article search. -/
inductive ArticleCall where
  | search (text : Value)
  | phrase (text : Value)
  | author (name : String)
  | tags (names : List String)
  | publishedBetween (start stop : Instant)
  | excludeDrafts
  | highlightMatches
  /-- lower scores for older articles, halved at the given distance from the origin -/
  | boostRecent (origin : Instant) (scale : String)

namespace ArticleCall

/-- The fields of a free-text search, with their weights. -/
def searchFields : List String := ["title^3", "summary^2", "body"]

/-- The options of highlighted matches. -/
def markOptions : HighlightOptions :=
  { preTags := some ["<mark>"]
    postTags := some ["</mark>"]
    fragmentSize := some 150
    numberOfFragments := some 3 }

/-- The function that scores by the distance from an origin in time. -/
def decayFunction (origin : Instant) (scale : String) : Value :=
  .single "gauss" (.single "published_at" (.obj
    [("origin", .str origin.rfc3339), ("scale", .str scale),
     ("decay", .ofDouble (.ofDecimal false ⟨5, -1⟩))]))

/-- The steps of a call, or what is wrong with its arguments. -/
def steps : ArticleCall → Checked (List Step)
  | search text => return [.clause (.multiMatch searchFields text (some "best_fields"))]
  | phrase text => return [.clause (.matchPhrase "body" text none)]
  | author name => return [.clause (.term "author" (.str name))]
  | tags names => return [.clause (.terms "tags" (names.map .str))]
  | publishedBetween start stop => do
    let window ← timeWindow start stop "published_at" "published_between"
    return [.clause (.range "published_at" window)]
  | excludeDrafts => return [.mustNot [.clause (.term "status" (.str "draft"))]]
  | highlightMatches => return [.highlight ["title", "body"] markOptions]
  | boostRecent origin scale => do
    Argument.nonBlank scale "scale" "boost_recent"
    return [.wrap (.functionScore [decayFunction origin scale] { boostMode := some "multiply" })]

end ArticleCall

end SearchRequest

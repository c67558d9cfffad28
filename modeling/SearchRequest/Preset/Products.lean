import SearchRequest.Step.Basic

/-!
# Product search

Calls for a catalogue of products with the fields `name`, `brand`, `description`, `category`,
`price`, `rating`, `in_stock` and `popularity`. Each call stands for one or more steps of a builder.
-/

namespace SearchRequest

/-- A call of a product search. -/
inductive ProductCall where
  | searchProducts (text : Value)
  | priceRange (min max : Option Double)
  | inStock
  | category (name : String)
  | brands (names : List String)
  | minRating (rating : Double)
  | sortByPrice (order : String)
  | sortByPopularity
  | withFacets

namespace ProductCall

/-- The fields of a free-text search, with their weights. -/
def searchFields : List String := ["name^3", "brand^2", "description", "category"]

/-- The price bands of the facets. -/
def priceBands : List Value :=
  [.obj [("key", .str "under_50"), ("to", .int 50)],
   .obj [("key", .str "50_to_200"), ("from", .int 50), ("to", .int 200)],
   .obj [("key", .str "over_200"), ("from", .int 200)]]

/-- The steps of a call, or what is wrong with its arguments. -/
def steps : ProductCall → Checked (List Step)
  | searchProducts text => return [.clause (.multiMatch searchFields text (some "best_fields"))]
  | priceRange min max => do
    Argument.optional (Argument.finite · "min" "price_range") min
    Argument.optional (Argument.finite · "max" "price_range") max
    return [.clause (.range "price" (.record
      [("gte", min.map .ofDouble), ("lte", max.map .ofDouble)]))]
  | inStock => return [.clause (.term "in_stock" (.bool true))]
  | category name => return [.clause (.term "category" (.str name))]
  | brands names => return [.clause (.terms "brand.keyword" (names.map .str))]
  | minRating rating => do
    Argument.finite rating "rating" "min_rating"
    return [.clause (.range "rating" (.single "gte" (.ofDouble rating)))]
  | sortByPrice order => return [.sort "price" order]
  | sortByPopularity => return [.sort "popularity" "desc"]
  | withFacets =>
    return [.aggregate (.terms "brands" "brand.keyword" 20),
      .aggregate (.range "price_ranges" "price" priceBands),
      .aggregate (.metric .avg "avg_rating" "rating")]

end ProductCall

end SearchRequest

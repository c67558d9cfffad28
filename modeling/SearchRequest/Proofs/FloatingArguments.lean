import SearchRequest.Proofs.Appending
import SearchRequest.Proofs.Atomicity
import SearchRequest.Proofs.Parameters
import SearchRequest.Proofs.Specifications

/-!
# Floating arguments

JSON has no infinities, and nothing that is no number: `Value.ofDouble` writes `null` in their
place. No argument comes to that. Every call with floating arguments checks them, each in its way:
boosts, scores and the numbers of presets are finite, percentages and coordinates lie between two
bounds.

* `Value.reach?` — the value at the end of a path of keys and positions.
* `Call.numbers` — the floating arguments of a call, each with the place in the document where it
  belongs.
* `Value.Holds` — the numbers are finite, and stand in their places. It is shown part by part, from
  the coordinates of a point up to the document.
* `Builder.numbers_placed` — a call with an argument that is not finite is rejected. One that is
  done has put each of its numbers in its place.
-/

namespace SearchRequest

/-! ## Places -/

/-- A turn on the way into a JSON value. -/
inductive Turn where
  | key (key : String)
  | item (index : Nat)
  /-- the last item of a list -/
  | last

namespace Value

/-- The value at the end of a path of keys and positions, if there is one. -/
def reach? : Value → List Turn → Option Value
  | v, [] => some v
  | .obj members, .key key :: rest => (Object.find? members key).bind (reach? · rest)
  | .arr items, .item index :: rest => items[index]?.bind (reach? · rest)
  | .arr items, .last :: rest => items.getLast?.bind (reach? · rest)
  | _, _ :: _ => none

/-- A path goes on where its first part ends. -/
theorem reach?_append (v : Value) (path rest : List Turn) :
    v.reach? (path ++ rest) = (v.reach? path).bind (·.reach? rest) := by
  induction path generalizing v with
  | nil => rw [List.nil_append, reach?, Option.bind_some]
  | cons turn path ih => cases v <;> cases turn <;> simp [reach?, ih, Option.bind_assoc]

/-- A path of keys alone. -/
theorem reach?_keys (v : Value) (path : List String) :
    v.reach? (path.map .key) = v.at? path := by
  induction path generalizing v with
  | nil => rw [List.map_nil, reach?, at?]
  | cons key path ih => cases v <;> simp [reach?, at?, object?, ih]

theorem reach?_single (key : String) (v : Value) (rest : List Turn) :
    (single key v).reach? (.key key :: rest) = v.reach? rest := by
  simp [single, reach?, Object.find?_cons]

end Value

/-! ## Numbers in their places -/

/-- A floating number, and the place where it belongs. -/
structure Placement where
  place : List Turn
  number : Double

namespace Placement

/-- A number that may be left out. -/
def ofOption (place : List Turn) (number? : Option Double) : List Placement :=
  number?.toList.map (⟨place, ·⟩)

/-- Numbers in a part of a value. -/
def under (path : List Turn) (numbers : List Placement) : List Placement :=
  numbers.map fun n => ⟨path ++ n.place, n.number⟩

/-- Numbers in the items of a list. -/
def items {α : Type} (numbers : α → List Placement) (as : List α) : List Placement :=
  as.zipIdx.flatMap fun a => under [.item a.2] (numbers a.1)

end Placement

namespace Value

/-- The numbers are finite, and stand in their places. -/
def Holds (v : Value) (numbers : List Placement) : Prop :=
  ∀ n ∈ numbers, n.number.isFinite = true ∧ v.reach? n.place = some (.float n.number)

namespace Holds

variable {v part : Value} {path : List Turn} {numbers others : List Placement}

theorem nil : v.Holds [] := fun _ h => absurd h List.not_mem_nil

theorem append (h : v.Holds numbers) (h' : v.Holds others) : v.Holds (numbers ++ others) := by
  intro n hn
  rcases List.mem_append.1 hn with hn | hn
  · exact h n hn
  · exact h' n hn

/-- A finite number is written as a number. -/
theorem number {x : Double} (hx : x.isFinite = true) (h : v.reach? path = some (.ofDouble x)) :
    v.Holds [⟨path, x⟩] := by
  intro n hn
  obtain rfl := List.mem_singleton.1 hn
  rw [ofDouble, if_pos hx] at h
  exact ⟨hx, h⟩

theorem ofOption {number? : Option Double} (hx : ∀ x, number? = some x → x.isFinite = true)
    (h : ∀ x, number? = some x → v.reach? path = some (.ofDouble x)) :
    v.Holds (Placement.ofOption path number?) := by
  cases number? with
  | none => exact nil
  | some x => exact number (hx x rfl) (h x rfl)

/-- What a part holds, the whole holds under the path to the part. -/
theorem under (h : part.Holds numbers) (hpath : v.reach? path = some part) :
    v.Holds (Placement.under path numbers) := by
  intro n hn
  obtain ⟨m, hm, rfl⟩ := List.mem_map.1 hn
  obtain ⟨hfinite, hplace⟩ := h m hm
  refine ⟨hfinite, ?_⟩
  rw [reach?_append, hpath]
  exact hplace

/-- What the items of a list hold, the list holds. -/
theorem items {α : Type} {as : List α} {f : α → Value} {numbers : α → List Placement}
    (h : ∀ a ∈ as, (f a).Holds (numbers a)) :
    (Value.arr (as.map f)).Holds (Placement.items numbers as) := by
  intro n hn
  obtain ⟨⟨a, i⟩, ha, hn⟩ := List.mem_flatMap.1 hn
  have hi : as[i]? = some a := List.mem_zipIdx_iff_getElem?.1 ha
  refine (h a (List.mem_of_getElem? hi)).under ?_ n hn
  simp [reach?, hi]

end Holds

end Value

/-! ## Clauses -/

open Placement (under items ofOption)

/-- The coordinates of a point. -/
def GeoPoint.numbers (p : GeoPoint) : List Placement :=
  [⟨[.key "lat"], p.lat⟩, ⟨[.key "lon"], p.lon⟩]

theorem GeoPoint.OnGlobe.holds {p : GeoPoint} (h : p.OnGlobe) : p.toValue.Holds p.numbers := by
  obtain ⟨hlat, hlon⟩ := h.isFinite
  exact .append (.number hlat rfl) (.number hlon rfl)

namespace ClauseCall

/-- The floating arguments of a call for a clause, with their places in the clause. -/
def numbers : ClauseCall → List Placement
  | fuzzy field _ options => ofOption [.key "fuzzy", .key field, .key "boost"] options.boost
  | geoDistance field point _ => under [.key "geo_distance", .key field] point.numbers
  | geoBoundingBox field topLeft bottomRight =>
    under [.key "geo_bounding_box", .key field, .key "top_left"] topLeft.numbers ++
      under [.key "geo_bounding_box", .key field, .key "bottom_right"] bottomRight.numbers
  | geoPolygon field points =>
    under [.key "geo_polygon", .key field, .key "points"] (items GeoPoint.numbers points)
  | _ => []

/-- **The clause of a call** holds the floating arguments of the call, each in its place. -/
theorem holds_of_check {config : Config} {call : ClauseCall} {s : Section} {c : Clause}
    (h : call.check config = .ok (s, c)) : c.toValue.Holds call.numbers := by
  obtain ⟨-, hclause⟩ := target_clause_of_check h
  obtain ⟨hlawful, -⟩ := lawful_of_check h
  cases call with
  | fuzzy field value options =>
    obtain rfl := Option.some.inj hclause
    obtain ⟨-, -, hboost⟩ := hlawful
    refine .ofOption (fun x hx => (Argument.boost_eq_ok_iff.1 (hboost x hx "fuzzy")).1) ?_
    intro x hx
    rw [Clause.toValue, Value.reach?_single, Value.reach?_single, hx]
    cases options.fuzziness <;> rfl
  | geoDistance field point distance =>
    obtain rfl := Option.some.inj hclause
    obtain ⟨-, hpoint, -⟩ := hlawful
    refine .under hpoint.holds ?_
    rw [Clause.toValue, Value.reach?_single]
    simp [Value.reach?]
  | geoBoundingBox field topLeft bottomRight =>
    obtain rfl := Option.some.inj hclause
    obtain ⟨-, htop, hbottom, -⟩ := hlawful
    refine .append (.under htop.holds ?_) (.under hbottom.holds ?_)
    · rw [Clause.toValue, Value.reach?_single, Value.reach?_single]
      rfl
    · rw [Clause.toValue, Value.reach?_single, Value.reach?_single]
      rfl
  | geoPolygon field points =>
    obtain rfl := Option.some.inj hclause
    obtain ⟨-, -, hpoints⟩ := hlawful
    refine .under (.items fun p hp => (hpoints p hp).holds) ?_
    rw [Clause.toValue, Value.reach?_single, Value.reach?_single, Value.reach?_single]
    rfl
  | _ => exact .nil

end ClauseCall

/-! ## Wrappers and aggregations -/

namespace Wrapper

/-- The floating arguments of a wrapper, with their places in its body. -/
def numbers : Wrapper → List Placement
  | functionScore _ options =>
    ofOption [.key "max_boost"] options.maxBoost ++ ofOption [.key "min_score"] options.minScore ++
      ofOption [.key "boost"] options.boost
  | constantScore boost => [⟨[.key "boost"], boost⟩]

/-- The body of a wrapper that passes holds its floating arguments. -/
theorem holds_of_check {w : Wrapper} (h : w.check = .ok ()) (inner : Value) :
    (w.body inner).Holds w.numbers := by
  cases w with
  | constantScore boost => exact .number (Argument.boost_eq_ok_iff.1 h).1 rfl
  | functionScore functions options =>
    obtain ⟨scoreMode, boostMode, maxBoost, minScore, boost⟩ := options
    rw [check] at h
    split at h
    · cases h
    · obtain ⟨_, hmax, h⟩ := Checked.bind_eq_ok_iff.1 h
      obtain ⟨_, hboost, hmin⟩ := Checked.bind_eq_ok_iff.1 h
      rw [Argument.optional_eq_ok_iff] at hmax hboost hmin
      refine .append (.append (.ofOption (fun x hx => ?_) fun x hx => ?_)
        (.ofOption (fun x hx => ?_) fun x hx => ?_)) (.ofOption (fun x hx => ?_) fun x hx => ?_)
      · exact (Argument.boost_eq_ok_iff.1 (hmax x hx)).1
      · obtain rfl : maxBoost = some x := hx
        cases scoreMode <;> cases boostMode <;> rfl
      · exact Argument.finite_eq_ok_iff.1 (hmin x hx)
      · obtain rfl : minScore = some x := hx
        cases scoreMode <;> cases boostMode <;> cases maxBoost <;> rfl
      · exact (Argument.boost_eq_ok_iff.1 (hboost x hx)).1
      · obtain rfl : boost = some x := hx
        cases scoreMode <;> cases boostMode <;> cases maxBoost <;> cases minScore <;> rfl

end Wrapper

namespace AggregationCall

/-- The floating arguments of a call for an aggregation, with their places among the
aggregations. -/
def numbers : AggregationCall → List Placement
  | percentiles name _ (some percents) =>
    under [.key name, .key "percentiles", .key "percents"] (items (fun x => [⟨[], x⟩]) percents)
  | _ => []

/-- An aggregation that passes holds its floating arguments, wherever it is attached. -/
theorem holds_of_check {call : AggregationCall} {r : String × Value} (h : call.check = .ok r)
    (attached : Object) : (Value.obj (attached.insert r.1 r.2)).Holds call.numbers := by
  cases call with
  | percentiles name field percents =>
    cases percents with
    | none => exact .nil
    | some percents =>
      obtain ⟨_, -, h⟩ := Checked.bind_eq_ok_iff.1 h
      obtain ⟨_, hpercents, h⟩ := Checked.bind_eq_ok_iff.1 h
      obtain ⟨-, rfl⟩ := attach_eq_ok_iff.1 h
      have hfinite := isFinite_of_percentages hpercents
      refine .under (.items fun x hx => .number (hfinite x hx) rfl) ?_
      simp [Value.reach?, Value.single, Value.record, Object.find?_cons]
  | _ => exact .nil

end AggregationCall

/-! ## Documents -/

namespace Document

/-- The numbers stand in their places when the document is written, as it is and as it is sent. -/
def Shows (d : Document) (numbers : List Placement) : Prop :=
  d.toValue.Holds numbers ∧ d.finalized.toValue.Holds numbers

variable {d : Document} {numbers : List Placement}

/-- What a part holds, the document holds under the key of the part. -/
theorem holds_field {key : String} {part : Value} (h : (key, some part) ∈ d.written)
    (hpart : part.Holds numbers) : d.toValue.Holds (under [.key key] numbers) := by
  refine hpart.under ?_
  exact (Value.reach?_keys _ [key]).trans (at?_field h [])

/-- The path to the last clause of a section. -/
def lastClause (s : Section) : List Turn := ["query", "bool", s.text].map .key ++ [.last]

/-- The last clause of a section is found at the end of its path. -/
theorem holds_lastClause {b : BoolQuery Clause} {s : Section} {cs : List Clause} {c : Clause}
    (hb : d.bool? = some b) (hs : b.get s = some (cs ++ [c])) (hc : c.toValue.Holds numbers) :
    d.toValue.Holds (under (lastClause s) numbers) := by
  obtain ⟨q, hq, hbool⟩ := Option.bind_eq_some_iff.1 hb
  refine hc.under ?_
  rw [lastClause, Value.reach?_append, Value.reach?_keys, at?_query hq, QueryRoot.at?_bool hbool,
    BoolQuery.at?_section, hs]
  simp [Value.reach?]

/-- A section with a clause is sent as it is. -/
theorem bool?_finalized {b : BoolQuery Clause} {s : Section} {cs : List Clause} {c : Clause}
    (hb : d.bool? = some b) (hs : b.get s = some (cs ++ [c])) :
    d.finalized.bool? = some b.prune ∧ b.prune.get s = some (cs ++ [c]) := by
  have hpruned : b.prune.get s = some (cs ++ [c]) := by
    rw [BoolQuery.get_prune, hs]
    cases cs <;> rfl
  have hempty : b.prune.isEmpty ≠ true := by
    intro he
    simp only [BoolQuery.isEmpty, Bool.and_eq_true, List.all_eq_true] at he
    have hnone := he.1.1 s s.mem_all
    rw [hpruned] at hnone
    cases hnone
  obtain ⟨q, hq, hbool⟩ := Option.bind_eq_some_iff.1 hb
  refine ⟨?_, hpruned⟩
  rw [bool?, query_finalized hq, Option.bind_some, QueryRoot.finalized, hbool]
  simp only [if_neg hempty]

/-- An added clause stands at the end of its section, and is sent. -/
theorem Gains.shows {s : Section} {c : Clause} {d' : Document} (h : d.Gains s [c] d')
    (hc : c.toValue.Holds numbers) : d'.Shows (under (lastClause s) numbers) := by
  have hs := h.bool.get s
  rw [if_pos rfl] at hs
  have hb : d'.bool? = some (d'.bool?.getD {}) := by
    rw [bool?, query_eq_of_get hs]
    rfl
  obtain ⟨hsent, hpruned⟩ := bool?_finalized hb hs
  exact ⟨holds_lastClause hb hs hc, holds_lastClause hsent hpruned hc⟩

/-- A query under its name is found there. -/
theorem holds_named {kind : String} {body : Value} (hq : d.query = some (.ofNamed kind body))
    (h : body.Holds numbers) : d.toValue.Holds (under [.key "query", .key kind] numbers) := by
  refine h.under ((Value.reach?_keys _ ["query", kind]).trans ?_)
  rw [at?_query hq]
  exact (Value.reach?_keys _ [kind]).symm.trans (Value.reach?_single kind body [])

/-- A wrapper is the whole query, and is sent as it is. -/
theorem shows_wrapQuery (d : Document) {w : Wrapper} (h : w.check = .ok ()) :
    (d.wrapQuery w).Shows (under [.key "query", .key w.kind] w.numbers) :=
  ⟨holds_named rfl (w.holds_of_check h _), holds_named rfl (w.holds_of_check h _)⟩

end Document

/-! ## Steps and calls -/

/-- The floating arguments of a step, with their places in the document. -/
def Step.numbers : Step → List Placement
  | clause call => under (Document.lastClause call.target) call.numbers
  | wrap w => under [.key "query", .key w.kind] w.numbers
  | minScore score => [⟨[.key "min_score"], score⟩]
  | aggregate call => under [.key "aggregations"] call.numbers
  | _ => []

/-- **A step that is done** has put its floating arguments in their places. -/
theorem Step.shows_of_apply {config : Config} {s : Step} {d d' : Document}
    (h : s.apply config d = .ok d') : d'.Shows s.numbers := by
  obtain ⟨e, he, hd⟩ := apply_eq_ok_iff.1 h
  cases asks_of_edit he with
  | clause hcheck =>
    obtain rfl := Except.ok.inj hd
    obtain ⟨rfl, -⟩ := ClauseCall.target_clause_of_check hcheck
    exact (d.gains_editBool _ _).shows (ClauseCall.holds_of_check hcheck)
  | wrap hcheck =>
    obtain rfl := Except.ok.inj hd
    exact d.shows_wrapQuery hcheck
  | minScore hfinite =>
    obtain rfl := Except.ok.inj hd
    have hscore := Argument.finite_eq_ok_iff.1 hfinite
    exact ⟨Document.holds_field (by simp [Document.written]) (.number hscore rfl),
      Document.holds_field (by simp [Document.written, Document.finalized]) (.number hscore rfl)⟩
  | aggregate hcheck =>
    obtain rfl := Except.ok.inj hd
    have hattached := AggregationCall.holds_of_check hcheck (d.aggregations.getD [])
    exact ⟨Document.holds_field (by simp [Document.written, Document.attach]) hattached,
      Document.holds_field (by simp [Document.written, Document.finalized, Document.attach])
        hattached⟩
  | _ => exact ⟨.nil, .nil⟩

/-- The floating arguments of a call, with their places in the document. -/
def Call.numbers : Call → List Placement
  | step s => s.numbers
  | product (.priceRange min max) =>
    under (Document.lastClause .filter)
      (under [.key "range", .key "price"] (ofOption [.key "gte"] min ++ ofOption [.key "lte"] max))
  | product (.minRating rating) =>
    under (Document.lastClause .filter)
      (under [.key "range", .key "rating"] [⟨[.key "gte"], rating⟩])
  | _ => []

/-- A range of floating numbers that is done stands at the end of `filter`. -/
theorem Step.shows_range {config : Config} {field : String} {bounds : Object} {d d' : Document}
    {numbers : List Placement}
    (h : (Step.clause (.range field (.obj bounds))).apply config d = .ok d')
    (hb : (Value.obj bounds).Holds numbers) :
    d'.Shows (under (Document.lastClause .filter) (under [.key "range", .key field] numbers)) := by
  obtain ⟨e, he, hd⟩ := apply_eq_ok_iff.1 h
  cases asks_of_edit he with
  | clause hcheck =>
    obtain rfl := Except.ok.inj hd
    obtain ⟨rfl, hclause⟩ := ClauseCall.target_clause_of_check hcheck
    obtain rfl := Option.some.inj hclause
    refine (d.gains_editBool _ _).shows (hb.under ?_)
    rw [Clause.toValue, Value.reach?_single, Value.reach?_single, Value.reach?]

namespace Builder

variable {b : Builder}

/-- **A call that is done** has put its floating arguments in their places. -/
theorem shows_of_perform {call : Call} (h : (b.perform call).2 = none) :
    (b.perform call).1.document.Shows call.numbers := by
  rw [perform_eq] at h ⊢
  rcases hsteps : call.steps with r | steps
  · rw [hsteps] at h
    cases h
  · rw [hsteps] at h
    cases call with
    | step s =>
      obtain rfl := Except.ok.inj hsteps
      exact s.shows_of_apply (apply_of_performSteps h)
    | product call =>
      cases call with
      | priceRange min max =>
        obtain ⟨_, hmin, hsteps⟩ := Checked.bind_eq_ok_iff.1 hsteps
        obtain ⟨_, hmax, hsteps⟩ := Checked.bind_eq_ok_iff.1 hsteps
        obtain rfl := Except.ok.inj hsteps
        rw [Argument.optional_eq_ok_iff] at hmin hmax
        refine Step.shows_range (apply_of_performSteps h) (.append ?_ ?_)
        · refine .ofOption (fun x hx => Argument.finite_eq_ok_iff.1 (hmin x hx)) fun x hx => ?_
          rw [hx]
          rfl
        · refine .ofOption (fun x hx => Argument.finite_eq_ok_iff.1 (hmax x hx)) fun x hx => ?_
          rw [hx]
          cases min <;> rfl
      | minRating rating =>
        obtain ⟨_, hrating, hsteps⟩ := Checked.bind_eq_ok_iff.1 hsteps
        obtain rfl := Except.ok.inj hsteps
        exact Step.shows_range (apply_of_performSteps h)
          (.number (Argument.finite_eq_ok_iff.1 hrating) rfl)
      | _ => exact ⟨.nil, .nil⟩
    | _ => exact ⟨.nil, .nil⟩

/-- **Floating arguments in their places.** A call with an argument that is not finite is rejected,
and leaves the builder as it was. After a call that is not rejected, each of its floating arguments
stands in its place as a number, in the live document and in the document as it is sent. -/
theorem numbers_placed (b : Builder) (call : Call) :
    ((∃ n ∈ call.numbers, n.number.isFinite = false) → ∃ r, b.perform call = (b, some r)) ∧
      ((b.perform call).2 = none → ∀ n ∈ call.numbers, n.number.isFinite = true ∧
        (b.perform call).1.document.toValue.reach? n.place = some (.float n.number) ∧
        (b.perform call).1.toValue.reach? n.place = some (.float n.number)) := by
  have hshown (h : (b.perform call).2 = none) (n : Placement) (hn : n ∈ call.numbers) :=
    And.intro ((shows_of_perform h).1 n hn) ((shows_of_perform h).2 n hn)
  constructor
  · rintro ⟨n, hn, hinfinite⟩
    rcases hr : (b.perform call).2 with _ | r
    · obtain ⟨⟨hfinite, -⟩, -⟩ := hshown hr n hn
      rw [hinfinite] at hfinite
      cases hfinite
    · exact ⟨r, Prod.ext (perform_of_rejected hr) hr⟩
  · intro h n hn
    obtain ⟨⟨hfinite, hlive⟩, -, hsent⟩ := hshown h n hn
    exact ⟨hfinite, hlive, hsent⟩

/-- Of two percentages the second one is no number; the longitude of the third corner is in its
place. -/
example :
    let load := (start {}).perform
      (.step (.aggregate (.percentiles "load" "cpu" (some [.zero, .nan]))))
    let corners : List GeoPoint := [⟨.zero, .zero⟩, ⟨.zero, .ofInt 9⟩, ⟨.ofInt 7, .ofInt 8⟩]
    let area := (start {}).perform (.step (.clause (.geoPolygon "area" corners)))
    load.2 = some ((Fault.percentileOutside .nan).reject "percents" "percentiles_agg") ∧
      area.1.toValue.reach?
        [.key "query", .key "bool", .key "filter", .last, .key "geo_polygon", .key "area",
         .key "points", .item 2, .key "lon"] = some (.float (.ofInt 8)) := ⟨rfl, rfl⟩

end Builder

end SearchRequest

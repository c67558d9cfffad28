import Mathlib.Data.List.DropRight
import SearchRequest.Proofs.Deep

/-!
# The rules of clauses

What a call asks of its arguments still holds of the clause that it made, wherever the clause ends
up: moved to another section by a merge, or within a query that is embedded in another clause.

* `Clause.Lawful` — the rules, kind by kind. Raw clauses have none. The configuration matters for
  one kind only, exact terms, whose field ends with the keyword suffix.
* `ClauseCall.lawful_of_check` — a clause that a call adds follows its rules.
* `Builder.lawful_of_within` — so do all the clauses of a builder after a run, at every depth.
-/

namespace SearchRequest

/-! ## Trimmed texts -/

/-- Nothing is left to trim after the first time. -/
theorem trimChars_trimChars (cs : List Char) : trimChars (trimChars cs) = trimChars cs := by
  have hrdrop (l : List Char) : (l.reverse.dropWhile isBlankChar).reverse =
      l.rdropWhile isBlankChar := rfl
  rw [trimChars, trimChars, hrdrop, hrdrop]
  -- what is dropped at the end uncovers no blank character in front
  have hfront : ((cs.dropWhile isBlankChar).rdropWhile isBlankChar).dropWhile isBlankChar =
      (cs.dropWhile isBlankChar).rdropWhile isBlankChar := by
    refine List.dropWhile_eq_self_iff.2 fun hl => ?_
    have hstart := List.rdropWhile_prefix isBlankChar (cs.dropWhile isBlankChar)
    rw [hstart.getElem hl]
    exact List.dropWhile_get_zero_not isBlankChar cs _
  rw [hfront, List.rdropWhile_idempotent]

@[simp] theorem trimmed_trimmed (s : String) : trimmed (trimmed s) = trimmed s := by
  rw [trimmed, trimmed, String.toList_ofList, trimChars_trimChars]

/-- Whether a text is a distance does not depend on the blanks around it. -/
@[simp] theorem Argument.isDistance_trimmed (s : String) :
    isDistance (trimmed s) = isDistance s := by
  rw [isDistance, trimmed, String.toList_ofList, trimChars_trimChars, isDistance]

/-- A text with something behind it that is not blank is not blank. -/
theorem isBlank_append {s : String} (h : isBlank s = false) (t : String) :
    isBlank (s ++ t) = false := by
  rw [← Bool.not_eq_true, isBlank_iff] at h ⊢
  intro hall
  refine h fun c hc => hall c ?_
  rw [String.toList_append]
  exact List.mem_append_left _ hc

theorem isBlank_keywordField (config : Config) {field : String} (h : isBlank field = false) :
    isBlank (config.keywordField field) = false := by
  rw [Config.keywordField]
  by_cases he : Config.endsWith field config.keywordSuffix = true
  · rw [if_pos he]
    exact h
  · rw [if_neg he]
    exact isBlank_append h _

/-! ## The rules -/

/-- A value to look for: neither null nor a blank text. -/
def Value.Queryable (v : Value) : Prop := v ≠ .null ∧ ∀ s, v = .str s → isBlank s = false

/-- A list of field names: not empty, and without a blank name. -/
def FieldList (fields : List String) : Prop := fields ≠ [] ∧ ∀ f ∈ fields, isBlank f = false

/-- A point on the globe. -/
def GeoPoint.OnGlobe (p : GeoPoint) : Prop := p.latitudeValid = true ∧ p.longitudeValid = true

/-- The rules that a clause follows, kind by kind. -/
def Clause.Lawful (config : Config) : Clause → Prop
  | textMatch field query _ | matchPhrase field query _ => isBlank field = false ∧ query.Queryable
  | multiMatch fields query _ => FieldList fields ∧ query.Queryable
  | term field value =>
    isBlank field = false ∧ value.Queryable ∧ Config.endsWith field config.keywordSuffix = true
  | terms field values => isBlank field = false ∧ values ≠ []
  | range field bounds =>
    isBlank field = false ∧ ∀ context, Argument.range (.obj bounds) field context = .ok bounds
  | fieldExists field => isBlank field = false
  | wildcard field value | startsWith field value | regexp field value =>
    isBlank field = false ∧ value.Queryable
  | fuzzy field value options =>
    isBlank field = false ∧ value.Queryable ∧
      ∀ boost, options.boost = some boost → ∀ context, Argument.boost boost context = .ok ()
  | queryString query options =>
    query.Queryable ∧ (∀ field, options.defaultField = some field → isBlank field = false) ∧
      ∀ fields, options.fields = some fields → FieldList fields
  | simpleQueryString query fields? =>
    query.Queryable ∧ ∀ fields, fields? = some fields → FieldList fields
  | geoDistance field point distance =>
    isBlank field = false ∧ point.OnGlobe ∧ trimmed distance = distance ∧
      ∀ context, Argument.distance distance field context = .ok ()
  | geoBoundingBox field topLeft bottomRight =>
    isBlank field = false ∧ topLeft.OnGlobe ∧ bottomRight.OnGlobe ∧
      topLeft.lat.lt bottomRight.lat = false
  | geoPolygon field points =>
    isBlank field = false ∧ 3 ≤ points.length ∧ ∀ p ∈ points, p.OnGlobe
  | nested label query | hasChild label query | hasParent label query =>
    isBlank label = false ∧ query.finalized = query
  | script source _ => source.Queryable
  | moreLikeThis fields like _ => FieldList fields ∧ like.Queryable
  | raw _ => True

/-! ## Clauses that calls add -/

/-- A range specification passes whatever field it is for, and gives its bounds. -/
theorem Argument.range_eq_ok_iff {spec : Value} {field context : String} {bounds : Object} :
    range spec field context = .ok bounds ↔
      spec = .obj bounds ∧ (unknownRangeKeys bounds).isEmpty = true ∧ bounds.isEmpty = false ∧
        doubledSide? bounds = none := by
  cases spec with
  | obj members =>
    rw [range]
    constructor
    · intro h
      obtain ⟨_, hunknown, h⟩ := Checked.bind_eq_ok_iff.1 h
      obtain ⟨_, hempty, h⟩ := Checked.bind_eq_ok_iff.1 h
      rcases hd : doubledSide? members with _ | side
      · rw [hd] at h
        obtain rfl := Except.ok.inj h
        have hempty' := (Bool.not_eq_true' _).mp (require_eq_ok_iff.1 hempty)
        exact ⟨rfl, require_eq_ok_iff.1 hunknown, hempty', hd⟩
      · rw [hd] at h
        cases h
    · rintro ⟨hspec, hunknown, hempty, hd⟩
      obtain rfl := Value.obj.inj hspec
      refine Checked.bind_eq_ok_iff.2 ⟨(), require_eq_ok_iff.2 hunknown, ?_⟩
      refine Checked.bind_eq_ok_iff.2 ⟨(), require_eq_ok_iff.2 (by rw [hempty]; rfl), ?_⟩
      rw [hd]
  | _ =>
    constructor
    · intro h
      cases h
    · rintro ⟨h, -⟩
      cases h

namespace ClauseCall

theorem fieldAndValue_eq_ok_iff {field context : String} {value : Value} {u : Unit} :
    fieldAndValue field value context = .ok u ↔ isBlank field = false ∧ value.Queryable := by
  rw [fieldAndValue, Checked.bind_eq_ok_iff]
  constructor
  · rintro ⟨_, hfield, hvalue⟩
    exact ⟨Argument.fieldName_eq_ok_iff.1 hfield, Argument.queryValue_eq_ok_iff.1 hvalue⟩
  · rintro ⟨hfield, hvalue⟩
    exact ⟨(), Argument.fieldName_eq_ok_iff.2 hfield, Argument.queryValue_eq_ok_iff.2 hvalue⟩

/-- **What a call checks, its clause keeps.** A clause that a call adds follows its rules, and it
holds no query of its own. -/
theorem lawful_of_check {config : Config} {call : ClauseCall} {s : Section} {c : Clause}
    (h : call.check config = .ok (s, c)) : c.Lawful config ∧ c.embedded? = none := by
  cases call with
  | textMatch | textMatchWith | matchPhrase | wildcard | startsWith | regexp =>
    obtain ⟨_, hfv, h⟩ := Checked.bind_eq_ok_iff.1 h
    cases h
    exact ⟨fieldAndValue_eq_ok_iff.1 hfv, rfl⟩
  | multiMatch =>
    obtain ⟨_, hfields, h⟩ := Checked.bind_eq_ok_iff.1 h
    obtain ⟨_, hquery, h⟩ := Checked.bind_eq_ok_iff.1 h
    obtain ⟨_, -, h⟩ := Checked.bind_eq_ok_iff.1 h
    cases h
    exact ⟨⟨Argument.stringList_eq_ok_iff.1 hfields, Argument.queryValue_eq_ok_iff.1 hquery⟩, rfl⟩
  | moreLikeThis =>
    obtain ⟨_, hfields, h⟩ := Checked.bind_eq_ok_iff.1 h
    obtain ⟨_, hlike, h⟩ := Checked.bind_eq_ok_iff.1 h
    cases h
    exact ⟨⟨Argument.stringList_eq_ok_iff.1 hfields, Argument.queryValue_eq_ok_iff.1 hlike⟩, rfl⟩
  | fuzzy =>
    obtain ⟨_, hfv, h⟩ := Checked.bind_eq_ok_iff.1 h
    obtain ⟨_, hboost, h⟩ := Checked.bind_eq_ok_iff.1 h
    cases h
    obtain ⟨hfield, hvalue⟩ := fieldAndValue_eq_ok_iff.1 hfv
    refine ⟨⟨hfield, hvalue, fun boost hb context => ?_⟩, rfl⟩
    have hsound := Argument.boost_eq_ok_iff.1 (Argument.optional_eq_ok_iff.1 hboost boost hb)
    exact Argument.boost_eq_ok_iff.2 hsound
  | queryString =>
    obtain ⟨_, hquery, h⟩ := Checked.bind_eq_ok_iff.1 h
    obtain ⟨_, hdefault, h⟩ := Checked.bind_eq_ok_iff.1 h
    obtain ⟨_, hfields, h⟩ := Checked.bind_eq_ok_iff.1 h
    cases h
    refine ⟨⟨Argument.queryValue_eq_ok_iff.1 hquery, fun field hf => ?_, fun fields hf => ?_⟩, rfl⟩
    · exact Argument.fieldName_eq_ok_iff.1 (Argument.optional_eq_ok_iff.1 hdefault field hf)
    · exact Argument.stringList_eq_ok_iff.1 (Argument.optional_eq_ok_iff.1 hfields fields hf)
  | simpleQueryString =>
    obtain ⟨_, hquery, h⟩ := Checked.bind_eq_ok_iff.1 h
    cases h
    exact ⟨⟨Argument.queryValue_eq_ok_iff.1 hquery, fun _ hf => by cases hf⟩, rfl⟩
  | simpleQueryStringIn =>
    obtain ⟨_, hquery, h⟩ := Checked.bind_eq_ok_iff.1 h
    obtain ⟨_, hfields, h⟩ := Checked.bind_eq_ok_iff.1 h
    cases h
    refine ⟨⟨Argument.queryValue_eq_ok_iff.1 hquery, fun fields hf => ?_⟩, rfl⟩
    obtain rfl := Option.some.inj hf
    exact Argument.stringList_eq_ok_iff.1 hfields
  | script =>
    obtain ⟨_, hsource, h⟩ := Checked.bind_eq_ok_iff.1 h
    cases h
    exact ⟨Argument.queryValue_eq_ok_iff.1 hsource, rfl⟩
  | term field value =>
    obtain ⟨_, hfv, h⟩ := Checked.bind_eq_ok_iff.1 h
    cases h
    obtain ⟨hfield, hvalue⟩ := fieldAndValue_eq_ok_iff.1 hfv
    exact ⟨⟨isBlank_keywordField config hfield, hvalue, config.endsWith_keywordField field⟩, rfl⟩
  | terms =>
    obtain ⟨_, hfield, h⟩ := Checked.bind_eq_ok_iff.1 h
    obtain ⟨_, hvalues, h⟩ := Checked.bind_eq_ok_iff.1 h
    cases h
    exact ⟨⟨Argument.fieldName_eq_ok_iff.1 hfield, Argument.termsValues_eq_ok_iff.1 hvalues⟩, rfl⟩
  | range =>
    obtain ⟨_, hfield, h⟩ := Checked.bind_eq_ok_iff.1 h
    obtain ⟨bounds, hbounds, h⟩ := Checked.bind_eq_ok_iff.1 h
    cases h
    obtain ⟨rfl, hrules⟩ := Argument.range_eq_ok_iff.1 hbounds
    refine ⟨⟨Argument.fieldName_eq_ok_iff.1 hfield, fun context => ?_⟩, rfl⟩
    exact Argument.range_eq_ok_iff.2 ⟨rfl, hrules⟩
  | fieldExists =>
    obtain ⟨_, hfield, h⟩ := Checked.bind_eq_ok_iff.1 h
    cases h
    exact ⟨Argument.fieldName_eq_ok_iff.1 hfield, rfl⟩
  | geoDistance field point distance =>
    obtain ⟨_, hfield, h⟩ := Checked.bind_eq_ok_iff.1 h
    obtain ⟨_, hpoint, h⟩ := Checked.bind_eq_ok_iff.1 h
    obtain ⟨_, hdistance, h⟩ := Checked.bind_eq_ok_iff.1 h
    cases h
    refine ⟨⟨Argument.fieldName_eq_ok_iff.1 hfield, GeoPoint.check_eq_ok_iff.1 hpoint,
      trimmed_trimmed distance, fun context => ?_⟩, rfl⟩
    rw [Argument.distance_eq_ok_iff, Argument.isDistance_trimmed]
    exact Argument.distance_eq_ok_iff.1 hdistance
  | geoBoundingBox =>
    obtain ⟨_, hfield, h⟩ := Checked.bind_eq_ok_iff.1 h
    obtain ⟨_, htop, h⟩ := Checked.bind_eq_ok_iff.1 h
    obtain ⟨_, hbottom, h⟩ := Checked.bind_eq_ok_iff.1 h
    obtain ⟨_, hbox, h⟩ := Checked.bind_eq_ok_iff.1 h
    cases h
    exact ⟨⟨Argument.fieldName_eq_ok_iff.1 hfield, GeoPoint.check_eq_ok_iff.1 htop,
      GeoPoint.check_eq_ok_iff.1 hbottom, (Bool.not_eq_true' _).mp (require_eq_ok_iff.1 hbox)⟩, rfl⟩
  | geoPolygon =>
    obtain ⟨_, hfield, h⟩ := Checked.bind_eq_ok_iff.1 h
    obtain ⟨_, hcount, h⟩ := Checked.bind_eq_ok_iff.1 h
    obtain ⟨_, hpoints, h⟩ := Checked.bind_eq_ok_iff.1 h
    cases h
    exact ⟨⟨Argument.fieldName_eq_ok_iff.1 hfield, of_decide_eq_true (require_eq_ok_iff.1 hcount),
      GeoPoint.checkAll_eq_ok_iff.1 hpoints⟩, rfl⟩
  | raw | rawIn =>
    cases h
    exact ⟨trivial, rfl⟩

end ClauseCall

/-- A clause that embeds the query of a callback holds it finalized. -/
theorem Embedding.lawful_clause (config : Config) {link : Embedding} {label : String}
    (h : link.check label = .ok ()) (sub : QueryRoot Clause) :
    (link.clause label sub.finalized).Lawful config := by
  have hlabel : isBlank label = false := check_eq_ok_iff.1 h
  cases link <;> exact ⟨hlabel, sub.finalized_finalized⟩

/-! ## Clauses of a builder -/

namespace Builder

/-- **Clauses follow their rules.** After any run, every clause within the query of the builder
follows the rules of its kind, under the configuration that the builder was made with. -/
theorem lawful_of_within {config : Config} {calls : List Call} {q : QueryRoot Clause} {c : Clause}
    (hq : ((start config).run calls).document.query = some q) (hc : c.Within q) :
    c.Lawful config := by
  -- here it does not matter what the raw queries are like, since their clauses stay raw
  have hreached : ((start config).run calls).document.QueryReached config fun _ => True :=
    queryReached_run fun call _ => call.adopts_of_forall fun _ => trivial
  obtain ⟨q', hq', hr⟩ := hreached
  obtain rfl := Option.some.inj (hq'.symm.trans hq)
  have hdeep : q'.Deep (Clause.Lawful config) :=
    hr.deep (fun _ => trivial) ClauseCall.lawful_of_check
      fun sub hl => Embedding.lawful_clause config hl sub
  exact hdeep c hc

/-- An exact term in a callback within a callback, of a builder with a suffix of its own. -/
theorem lawful_of_within_nested :
    let term : Clause := .term "kind.raw" (.str "book")
    let query : QueryRoot Clause := { bool := some {
      must := some [.nested "lines" { bool := some {
        must := some [.hasChild "item" { bool := some { filter := some [term] } }] } }],
      filter := some [], should := some [], mustNot := some [] } }
    ((start { keywordSuffix := ".raw" }).run [.step (.embed .nested "lines"
      [.embed .hasChild "item" [.clause (.term "kind" (.str "book"))]])]).document.query =
        some query ∧ term.Within query ∧ term.Lawful { keywordSuffix := ".raw" } := by
  intro term query
  have hq : ((start { keywordSuffix := ".raw" }).run [.step (.embed .nested "lines"
      [.embed .hasChild "item" [.clause (.term "kind" (.str "book"))]])]).document.query =
        some query := by
    rfl
  have hw : term.Within query :=
    .inside (s := .must) rfl List.mem_cons_self rfl
      (.inside (s := .must) rfl List.mem_cons_self rfl
        (.here (s := .filter) rfl List.mem_cons_self))
  exact ⟨hq, hw, lawful_of_within hq hw⟩

end Builder

end SearchRequest

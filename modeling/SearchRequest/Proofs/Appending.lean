import SearchRequest.Proofs.Callbacks
import SearchRequest.Proofs.ClauseRules

/-!
# Calls that add one clause

What a call for a clause puts where can be read off the call and the configuration, without a look
at the checks: `ClauseCall.target` is the section, and `ClauseCall.clause?` the clause that carries
the arguments. Two arguments are not carried as they were given. The field of an exact term gets the
keyword suffix, and a distance is trimmed.

The main statement is `Builder.append_clause`: a call that is not rejected adds this clause to the
end of this section, and nothing else changes. What the query was before makes no difference: a
section may have been there or not, a value may have waited for it, and the query may have held no
bool query at all.
-/

namespace SearchRequest

/-! ## What calls put where -/

namespace ClauseCall

/-- The section that a call adds a clause to. -/
def target : ClauseCall → Section
  | term .. | terms .. | range .. | fieldExists _ => .filter
  | geoDistance .. | geoBoundingBox .. | geoPolygon .. => .filter
  | rawIn target _ => target
  | _ => .must

/-- The clause that carries the arguments of a call. No clause carries an unknown strategy, or a
range that is no object. -/
def clause? (config : Config) : ClauseCall → Option Clause
  | textMatch field query => some (.textMatch field query none)
  | textMatchWith field query operator => some (.textMatch field query (some operator))
  | matchPhrase field query slop => some (.matchPhrase field query slop)
  | multiMatch fields query none => some (.multiMatch fields query none)
  | multiMatch fields query (some token) =>
    (MatchStrategy.ofText? token).map fun s => .multiMatch fields query (some s)
  | wildcard field pattern => some (.wildcard field pattern)
  | startsWith field value => some (.startsWith field value)
  | fuzzy field value options => some (.fuzzy field value options)
  | regexp field pattern => some (.regexp field pattern)
  | queryString query options => some (.queryString query options)
  | simpleQueryString query => some (.simpleQueryString query none)
  | simpleQueryStringIn query fields => some (.simpleQueryString query (some fields))
  | script source params => some (.script source params)
  | moreLikeThis fields like options => some (.moreLikeThis fields like options)
  | term field value => some (.term (config.keywordField field) value)
  | terms field values => some (.terms field values)
  | range field spec => spec.object?.map (.range field)
  | fieldExists field => some (.fieldExists field)
  | geoDistance field point distance => some (.geoDistance field point (trimmed distance))
  | geoBoundingBox field topLeft bottomRight => some (.geoBoundingBox field topLeft bottomRight)
  | geoPolygon field points => some (.geoPolygon field points)
  | raw clause | rawIn _ clause => some (.raw clause)

end ClauseCall

/-! ## What has passed -/

/-- A strategy that passes is one that there is. -/
theorem MatchStrategy.ofText?_of_parse {given : Option String} {context : String}
    {strategy? : Option MatchStrategy} (h : parse given context = .ok strategy?) :
    (given = none ∧ strategy? = none) ∨
      ∃ token s, given = some token ∧ ofText? token = some s ∧ strategy? = some s := by
  rcases given with _ | token
  · exact .inl ⟨rfl, (Except.ok.inj h).symm⟩
  · rw [parse] at h
    rcases hs : ofText? token with _ | s
    · rw [hs] at h
      cases h
    · rw [hs] at h
      exact .inr ⟨token, s, rfl, hs, (Except.ok.inj h).symm⟩

/-- **What passes is what was given**: the section and the clause of a call whose arguments have
passed. -/
theorem ClauseCall.target_clause_of_check {config : Config} {call : ClauseCall} {s : Section}
    {c : Clause} (h : call.check config = .ok (s, c)) :
    call.target = s ∧ call.clause? config = some c := by
  cases call with
  | textMatch | textMatchWith | matchPhrase | wildcard | startsWith | regexp | simpleQueryString
  | script | term | fieldExists =>
    obtain ⟨_, -, h⟩ := Checked.bind_eq_ok_iff.1 h
    cases h
    exact ⟨rfl, rfl⟩
  | fuzzy | simpleQueryStringIn | moreLikeThis | terms =>
    obtain ⟨_, -, h⟩ := Checked.bind_eq_ok_iff.1 h
    obtain ⟨_, -, h⟩ := Checked.bind_eq_ok_iff.1 h
    cases h
    exact ⟨rfl, rfl⟩
  | queryString | geoDistance | geoPolygon =>
    obtain ⟨_, -, h⟩ := Checked.bind_eq_ok_iff.1 h
    obtain ⟨_, -, h⟩ := Checked.bind_eq_ok_iff.1 h
    obtain ⟨_, -, h⟩ := Checked.bind_eq_ok_iff.1 h
    cases h
    exact ⟨rfl, rfl⟩
  | geoBoundingBox =>
    obtain ⟨_, -, h⟩ := Checked.bind_eq_ok_iff.1 h
    obtain ⟨_, -, h⟩ := Checked.bind_eq_ok_iff.1 h
    obtain ⟨_, -, h⟩ := Checked.bind_eq_ok_iff.1 h
    obtain ⟨_, -, h⟩ := Checked.bind_eq_ok_iff.1 h
    cases h
    exact ⟨rfl, rfl⟩
  | multiMatch =>
    obtain ⟨_, -, h⟩ := Checked.bind_eq_ok_iff.1 h
    obtain ⟨_, -, h⟩ := Checked.bind_eq_ok_iff.1 h
    obtain ⟨strategy?, hstrategy, h⟩ := Checked.bind_eq_ok_iff.1 h
    cases h
    rcases MatchStrategy.ofText?_of_parse hstrategy with ⟨rfl, rfl⟩ | ⟨token, s, rfl, hs, rfl⟩
    · exact ⟨rfl, rfl⟩
    · exact ⟨rfl, by rw [clause?, hs]; rfl⟩
  | range =>
    obtain ⟨_, -, h⟩ := Checked.bind_eq_ok_iff.1 h
    obtain ⟨bounds, hbounds, h⟩ := Checked.bind_eq_ok_iff.1 h
    cases h
    obtain ⟨rfl, -⟩ := Argument.range_eq_ok_iff.1 hbounds
    exact ⟨rfl, rfl⟩
  | raw | rawIn =>
    cases h
    exact ⟨rfl, rfl⟩

/-! ## Sections that gain clauses, as they are written -/

namespace Document

/-- After clauses were added to the end of a section, every section is written in full: the items
that it had, with a value that waited for it as its one item, and behind them the new ones. -/
theorem Gains.at?_section {s : Section} {cs : List Clause} {d d' : Document}
    (h : d.Gains s cs d') (t : Section) :
    d'.toValue.at? ["query", "bool", t.text] = some (.arr
      (((d.bool?.getD {}).upcoming .raw t ++ if t = s then cs else []).map Clause.toValue)) := by
  rw [at?_query (query_eq_of_get (h.bool.get t)), QueryRoot.at?_bool rfl, BoolQuery.at?_section,
    h.bool.get t]
  rfl

end Document

/-! ## Calls of a builder -/

namespace Builder

/-- A call for a clause that is done has passed its checks. -/
theorem check_of_perform_clause {b : Builder} {call : ClauseCall}
    (h : (b.perform (.step (.clause call))).2 = none) :
    ∃ s c, call.check b.config = .ok (s, c) := by
  obtain ⟨e, he, -⟩ := Step.apply_eq_ok_iff.1 (apply_of_performSteps h)
  cases Step.asks_of_edit he with
  | clause hcheck => exact ⟨_, _, hcheck⟩

/-- **Adding one clause.** A call for a clause that is not rejected adds the clause that carries its
arguments to the end of its section. The clauses before it are those that the section had, and a
value that waited for the section is now its one clause. The other sections keep their clauses; the
bound on optional clauses, the other parameters, the queries beside the bool query and all other
parts of the document are as they were. -/
theorem append_clause (b : Builder) (call : ClauseCall)
    (h : (b.perform (.step (.clause call))).2 = none) :
    ∃ c d, call.clause? b.config = some c ∧
      (b.perform (.step (.clause call))).1 = { b with document := d } ∧
      b.document.Gains call.target [c] d ∧
      d.toValue.at? ["query", "bool", call.target.text] = some (.arr
        (((b.document.bool?.getD {}).upcoming .raw call.target).map Clause.toValue ++
          [c.toValue])) := by
  obtain ⟨s, c, hcheck⟩ := check_of_perform_clause h
  obtain ⟨rfl, hclause⟩ := ClauseCall.target_clause_of_check hcheck
  obtain ⟨d, hd, hgains⟩ := perform_append (Step.edit_eq_ok_iff.2 (.clause hcheck))
  refine ⟨c, d, hclause, by rw [hd], hgains, ?_⟩
  rw [hgains.at?_section call.target, if_pos rfl, List.map_append]
  rfl

/-- An exact term behind a value that waited for its section, beside another query; a distance with
blanks around it, behind a wrapper; and a raw clause sent to a section of choice. -/
theorem append_clause_examples :
    let adopted := (start {}).run [.step (.setQuery (.obj
      [("knn", .obj []), ("bool", .obj [("filter", .str "later"), ("boost", .int 2)])]))]
    let wrapped := (start {}).run [.step (.wrap (.constantScore .zero))]
    let term : ClauseCall := .term "kind" (.str "book")
    let near : ClauseCall := .geoDistance "place" ⟨.zero, .zero⟩ " 10km "
    let named : ClauseCall := .rawIn .mustNot .null
    ((adopted.perform (.step (.clause term))).2 = none ∧
      ∃ d, adopted.document.Gains .filter [.term "kind.keyword" (.str "book")] d ∧
        d.toValue.at? ["query", "bool", "filter"] = some (.arr
          [.str "later", .single "term" (.single "kind.keyword" (.str "book"))])) ∧
    ((wrapped.perform (.step (.clause near))).2 = none ∧
      ∃ d, wrapped.document.Gains .filter [.geoDistance "place" ⟨.zero, .zero⟩ "10km"] d) ∧
    (wrapped.perform (.step (.clause named))).2 = none ∧
      ∃ d, wrapped.document.Gains .mustNot [.raw .null] d := by
  intro adopted wrapped term near named
  refine ⟨⟨rfl, ?_⟩, ⟨rfl, ?_⟩, rfl, ?_⟩
  · obtain ⟨c, d, hc, -, hgains, hshown⟩ := append_clause adopted term rfl
    have hfield : adopted.config.keywordField "kind" = "kind.keyword" := by decide
    cases hc
    rw [hfield] at hgains hshown
    exact ⟨d, hgains, hshown⟩
  · obtain ⟨c, d, hc, -, hgains, -⟩ := append_clause wrapped near rfl
    cases hc
    exact ⟨d, hgains⟩
  · obtain ⟨c, d, hc, -, hgains, -⟩ := append_clause wrapped named rfl
    cases hc
    exact ⟨d, hgains⟩

end Builder

end SearchRequest

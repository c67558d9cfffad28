import SearchRequest.Proofs.Run

/-!
# What steps ask for

A step asks for an edit once its arguments have passed. `Step.Asks` lists the steps with the edits
that they ask for and the checks that have passed by then; `Step.edit_eq_ok_iff` says that the list
is complete.

A fact about all the edits that steps ask for is then shown constructor by constructor, with the
checks at hand, and without a look at how the checks are strung together.
-/

namespace SearchRequest

namespace Step

/-- The step asks for the edit, and its arguments have passed. -/
inductive Asks (config : Config) : Step → Edit → Prop where
  | clause {call : ClauseCall} {s : Section} {c : Clause} (h : call.check config = .ok (s, c)) :
    Asks config (.clause call) (.append s [c])
  | should {steps : List Step} {d : Document} (h : runAll config steps .fresh = .ok d) :
    Asks config (.should steps) (.append .should d.mergeable)
  | mustNot {steps : List Step} {d : Document} (h : runAll config steps .fresh = .ok d) :
    Asks config (.mustNot steps) (.append .mustNot d.mergeable)
  | embed {link : Embedding} {label : String} {steps : List Step} {d : Document}
    (hl : link.check label = .ok ()) (h : runAll config steps .fresh = .ok d) :
    Asks config (.embed link label steps) (.append .must [link.clause label d.embeddable])
  | minimumShouldMatch {count : Nat} : Asks config (.minimumShouldMatch count) (.setMinimum count)
  | ensureBoolQuery : Asks config .ensureBoolQuery .installBool
  | wrap {w : Wrapper} (h : w.check = .ok ()) : Asks config (.wrap w) (.wrap w)
  | setQuery {v : Value} {q : QueryRoot Clause} (h : QueryRoot.adopt .raw v = .ok q) :
    Asks config (.setQuery v) (.replaceQuery q)
  | matchAll : Asks config .matchAll (.replaceQuery .matchAll)
  | reset : Asks config .reset .reset
  | offset {given : Int} {n : Nat} (h : Argument.offset given "from" = .ok n) :
    Asks config (.offset given) (.setOffset n)
  | size {given : Int} {n : Nat} (h : Argument.size given config.maxResultWindow "size" = .ok n) :
    Asks config (.size given) (.setSize n)
  | sort {field order : String} {o : SortOrder} (hf : Argument.fieldName field "sort" = .ok ())
    (ho : SortOrder.parse order "sort" = .ok o) :
    Asks config (.sort field order) (.addSort (.byField field o))
  | sortWith {field : String} {options : SortOptions}
    (hf : Argument.fieldName field "sort_with" = .ok ())
    (hm : Argument.optional (Argument.nonBlank · "mode" "sort_with") options.mode = .ok ()) :
    Asks config (.sortWith field options) (.addSort (.detailed field options))
  | source {fields : List String} (h : Argument.stringList fields "fields" "source" = .ok ()) :
    Asks config (.source fields) (.setSource (.fields fields))
  | sourceEnabled {all : Bool} : Asks config (.sourceEnabled all) (.setSource (.enabled all))
  | highlight {fields : List String} {options : HighlightOptions}
    (h : Argument.stringList fields "fields" "highlight" = .ok ()) :
    Asks config (.highlight fields options) (.setHighlight ⟨plainHighlight fields, options⟩)
  | highlightField {field : String} {options : Value}
    (hf : Argument.fieldName field "highlight_field" = .ok ())
    (ho : require options.isObject (.highlightNotObject field) field "highlight_field" = .ok ()) :
    Asks config (.highlightField field options) (.addHighlight field options)
  | trackTotalHits {track : Bool} : Asks config (.trackTotalHits track) (.setTrackTotalHits track)
  | minScore {score : Double} (h : Argument.finite score "min_score" "min_score" = .ok ()) :
    Asks config (.minScore score) (.setMinScore score)
  | searchAfter {values : List Value}
    (h : Argument.nonEmpty values "search_after" "search_after" = .ok ()) :
    Asks config (.searchAfter values) (.setSearchAfter values)
  | aggregate {call : AggregationCall} {r : String × Value} (h : call.check = .ok r) :
    Asks config (.aggregate call) (.attach r.1 r.2)
  | subAggregate {parent name : String} {spec : Value}
    (hp : Argument.aggregationName parent "sub_aggregate" = .ok ())
    (hn : Argument.aggregationName name "sub_aggregate" = .ok ())
    (hs : Argument.aggregationSpec spec name "sub_aggregate" = .ok ()) :
    Asks config (.subAggregate parent name spec) (.attachUnder parent name spec)

variable {config : Config} {s : Step} {e : Edit}

theorem asks_of_edit (h : s.edit config = .ok e) : s.Asks config e := by
  cases s with
  | clause | should | mustNot | setQuery | offset | size | aggregate =>
    rw [edit] at h
    obtain ⟨_, hx, rfl⟩ := Checked.map_eq_ok_iff.1 h
    constructor
    exact hx
  | minimumShouldMatch | ensureBoolQuery | matchAll | reset | sourceEnabled | trackTotalHits =>
    obtain rfl := Except.ok.inj h
    constructor
  | wrap | source | highlight | minScore | searchAfter =>
    rw [edit] at h
    obtain ⟨_, hx, h⟩ := Checked.bind_eq_ok_iff.1 h
    obtain rfl := Except.ok.inj h
    constructor
    exact hx
  | embed | sort | sortWith | highlightField =>
    rw [edit] at h
    obtain ⟨_, hx, h⟩ := Checked.bind_eq_ok_iff.1 h
    obtain ⟨_, hy, h⟩ := Checked.bind_eq_ok_iff.1 h
    obtain rfl := Except.ok.inj h
    constructor
    · exact hx
    · exact hy
  | subAggregate =>
    rw [edit] at h
    obtain ⟨_, hx, h⟩ := Checked.bind_eq_ok_iff.1 h
    obtain ⟨_, hy, h⟩ := Checked.bind_eq_ok_iff.1 h
    obtain ⟨_, hz, h⟩ := Checked.bind_eq_ok_iff.1 h
    obtain rfl := Except.ok.inj h
    exact .subAggregate hx hy hz

/-- **What a step asks for**, once its arguments have passed. -/
theorem edit_eq_ok_iff : s.edit config = .ok e ↔ s.Asks config e := by
  refine ⟨asks_of_edit, fun h => ?_⟩
  cases h with
  | clause h | should h | mustNot h | setQuery h | offset h | size h | aggregate h
  | wrap h | source h | highlight h | minScore h | searchAfter h =>
    rw [edit, h]
    rfl
  | embed hx hy | sort hx hy | sortWith hx hy | highlightField hx hy =>
    rw [edit, hx]
    simp only [bind, Except.bind, hy]
    rfl
  | subAggregate hx hy hz =>
    rw [edit, hx]
    simp only [bind, Except.bind, hy, hz]
    rfl
  | _ => rfl

end Step

end SearchRequest

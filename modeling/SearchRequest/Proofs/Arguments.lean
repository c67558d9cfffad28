import SearchRequest.Proofs.Appending

/-!
# JSON among the arguments

A caller hands JSON values over: what to look for, raw clauses and queries, options, specifications
of aggregations. `Step.values` and `Call.values` list them, those included that steps of a callback
are given. Everything else that a request holds is written by the library itself.

What the library writes is well formed as soon as these values are:

* `Clause.wellFormed_toValue` — clauses. A clause that a call adds holds the values that the call
  was given, see `ClauseCall.values_of_clause`.
* `AggregationCall.wellFormed_of_check` — specifications of aggregations.
* `Call.wellFormed_steps` — the steps of presets are given well-formed values, if the calls are.
-/

namespace SearchRequest

/-! ## Values that are put together -/

namespace Value

@[simp] theorem wellFormed_str (s : String) : (str s).wellFormed = true := rfl

@[simp] theorem wellFormed_nat (n : Nat) : (nat n).wellFormed = true := rfl

@[simp] theorem wellFormed_single (key : String) (v : Value) :
    (single key v).wellFormed = v.wellFormed := by
  simp [single, wellFormed, wellFormedMembers]

@[simp] theorem wellFormed_ofDouble (x : Double) : (ofDouble x).wellFormed = true := by
  rw [ofDouble]
  split <;> rfl

theorem wellFormed_strs (items : List String) : ∀ v ∈ items.map Value.str, v.wellFormed = true := by
  intro v hv
  obtain ⟨s, -, rfl⟩ := List.mem_map.1 hv
  rfl

@[simp] theorem wellFormed_strings (items : List String) : (strings items).wellFormed = true :=
  wellFormed_arr.2 (wellFormed_strs items)

/-- A record is well formed if its keys are distinct and its fields are well formed. -/
theorem wellFormed_record {fields : List (String × Option Value)}
    (hn : (fields.map Prod.fst).Nodup) (h : ∀ f ∈ fields, ∀ v ∈ f.2, v.wellFormed = true) :
    (record fields).wellFormed = true := by
  rw [record_eq, wellFormed_obj]
  refine ⟨(keys_present_sublist fields).nodup hn, fun m hm => ?_⟩
  obtain ⟨f, hf, he⟩ := List.mem_filterMap.1 hm
  obtain ⟨v, hv, rfl⟩ := Option.map_eq_some_iff.1 he
  exact h f hf v hv

/-- A field that is written from a part is well formed if it is so whenever the part is there. -/
theorem wellFormed_map {α : Type} {a? : Option α} {f : α → Value}
    (h : ∀ a, a? = some a → (f a).wellFormed = true) : ∀ v ∈ a?.map f, v.wellFormed = true := by
  intro v hv
  obtain ⟨a, ha, rfl⟩ := Option.map_eq_some_iff.1 hv
  exact h a ha

theorem wellFormed_pair {k k' : String} {v v' : Value} (hk : k ≠ k') (hv : v.wellFormed = true)
    (hv' : v'.wellFormed = true) : (obj [(k, v), (k', v')]).wellFormed = true := by
  simp [wellFormed, wellFormedMembers, hk, hv, hv']

/-- Writing a well-formed value into an object keeps the object well formed. -/
theorem wellFormed_insert {members : Object} (h : (obj members).wellFormed = true) (key : String)
    {v : Value} (hv : v.wellFormed = true) : (obj (members.insert key v)).wellFormed = true := by
  obtain ⟨hn, hm⟩ := wellFormed_obj.1 h
  refine wellFormed_obj.2 ⟨Object.nodup_keys_insert hn key v, ?_⟩
  exact Object.forall_mem_insert (P := fun v => v.wellFormed = true) hm key hv

/-- Removing a member keeps the object well formed. -/
theorem wellFormed_erase {members : Object} (h : (obj members).wellFormed = true) (key : String) :
    (obj (members.erase key)).wellFormed = true := by
  obtain ⟨hn, hm⟩ := wellFormed_obj.1 h
  exact wellFormed_obj.2
    ⟨Object.nodup_keys_erase hn key, fun m he => hm m (Object.mem_of_mem_erase he)⟩

end Value

/-! ## Clauses -/

/-- The JSON values that a clause holds. -/
def Clause.values : Clause → List Value
  | textMatch _ v _ | matchPhrase _ v _ | multiMatch _ v _ | term _ v | wildcard _ v
  | startsWith _ v | regexp _ v | queryString v _ | simpleQueryString v _ | moreLikeThis _ v _
  | raw v => [v]
  | fuzzy _ v options => v :: options.fuzziness.toList
  | terms _ vs => vs
  | range _ bounds => [.obj bounds]
  | script source params => source :: (params.map Value.obj).toList
  | nested _ query | hasChild _ query | hasParent _ query => [query.toValue]
  | fieldExists _ | geoDistance .. | geoBoundingBox .. | geoPolygon .. => []

@[simp] theorem GeoPoint.wellFormed_toValue (p : GeoPoint) : p.toValue.wellFormed = true :=
  Value.wellFormed_pair (by decide) (Value.wellFormed_ofDouble _) (Value.wellFormed_ofDouble _)

theorem Embedding.wellFormed_clause (link : Embedding) (label : String) {query : QueryRoot Clause}
    (h : query.toValue.wellFormed = true) :
    (link.clause label query).toValue.wellFormed = true := by
  rw [toValue_clause, Value.wellFormed_single]
  exact Value.wellFormed_pair (by cases link <;> decide) rfl h

/-- **A clause is well formed** if the values in it are. -/
theorem Clause.wellFormed_toValue {c : Clause} (h : ∀ v ∈ c.values, v.wellFormed = true) :
    c.toValue.wellFormed = true := by
  cases c with
  | term | wildcard | startsWith | regexp | terms | range | raw =>
    simpa [toValue, values, Value.wellFormed_arr] using h
  | fieldExists => simp [toValue]
  | textMatch _ v | matchPhrase _ v | multiMatch _ v | queryString v | simpleQueryString v
  | moreLikeThis _ v =>
    have hv : v.wellFormed = true := h v List.mem_cons_self
    simp only [toValue, Value.wellFormed_single]
    exact Value.wellFormed_record (by simp) (by simp [hv])
  | fuzzy _ v options =>
    obtain ⟨hv, hfuzziness⟩ := List.forall_mem_cons.1 h
    simp only [toValue, Value.wellFormed_single]
    refine Value.wellFormed_record (by simp) ?_
    simpa [hv] using hfuzziness
  | script source params =>
    obtain ⟨hsource, hparams⟩ := List.forall_mem_cons.1 h
    simp only [toValue, Value.wellFormed_single]
    refine Value.wellFormed_record (by simp) ?_
    simpa [hsource] using hparams
  | geoDistance field point distance =>
    have hdistance : (Value.single "distance" (.str distance)).wellFormed = true := rfl
    rw [toValue, Value.wellFormed_single]
    exact Value.wellFormed_insert hdistance field point.wellFormed_toValue
  | geoBoundingBox _ topLeft bottomRight =>
    simp only [toValue, Value.wellFormed_single]
    exact Value.wellFormed_pair (by decide) topLeft.wellFormed_toValue
      bottomRight.wellFormed_toValue
  | geoPolygon => simp [toValue, Value.wellFormed_arr]
  | nested label => exact Embedding.nested.wellFormed_clause label (h _ List.mem_cons_self)
  | hasChild label => exact Embedding.hasChild.wellFormed_clause label (h _ List.mem_cons_self)
  | hasParent label => exact Embedding.hasParent.wellFormed_clause label (h _ List.mem_cons_self)

namespace ClauseCall

/-- The JSON values that a call for a clause is given. -/
def values : ClauseCall → List Value
  | textMatch _ v | textMatchWith _ v _ | matchPhrase _ v _ | multiMatch _ v _ | wildcard _ v
  | startsWith _ v | regexp _ v | queryString v _ | simpleQueryString v | simpleQueryStringIn v _
  | moreLikeThis _ v _ | term _ v | range _ v | raw v | rawIn _ v => [v]
  | fuzzy _ v options => v :: options.fuzziness.toList
  | script source params => source :: (params.map Value.obj).toList
  | terms _ vs => vs
  | fieldExists _ | geoDistance .. | geoBoundingBox .. | geoPolygon .. => []

/-- The clause of a call holds the values that the call was given. -/
theorem values_of_clause {config : Config} {call : ClauseCall} {c : Clause}
    (h : call.clause? config = some c) : c.values = call.values := by
  cases call with
  | multiMatch fields query strategy =>
    rcases strategy with _ | token
    · obtain rfl := Option.some.inj h
      rfl
    · obtain ⟨s, -, rfl⟩ := Option.map_eq_some_iff.1 h
      rfl
  | range field spec =>
    obtain ⟨bounds, hbounds, rfl⟩ := Option.map_eq_some_iff.1 h
    cases spec with
    | obj members =>
      obtain rfl := Option.some.inj hbounds
      rfl
    | _ => cases hbounds
  | _ =>
    obtain rfl := Option.some.inj h
    rfl

theorem wellFormed_of_check {config : Config} {call : ClauseCall} {s : Section} {c : Clause}
    (hw : ∀ v ∈ call.values, v.wellFormed = true) (h : call.check config = .ok (s, c)) :
    c.toValue.wellFormed = true := by
  obtain ⟨-, hclause⟩ := target_clause_of_check h
  exact Clause.wellFormed_toValue (values_of_clause hclause ▸ hw)

end ClauseCall

/-! ## Aggregations -/

theorem Metric.wellFormed_spec (m : Metric) (field : String) :
    (m.spec field).wellFormed = true := by
  simp [spec]

namespace AggregationCall

/-- The JSON values that a call for an aggregation is given. -/
def values : AggregationCall → List Value
  | general _ spec => [spec]
  | range _ _ ranges => ranges
  | filters _ clauses => [.obj clauses]
  | nested _ _ aggs => [.obj aggs]
  | terms .. | dateHistogram .. | histogram .. | metric .. | percentiles .. => []

/-- **A specification is well formed** if the values are that the call is given. -/
theorem wellFormed_of_check {call : AggregationCall} {r : String × Value}
    (hw : ∀ v ∈ call.values, v.wellFormed = true) (h : call.check = .ok r) :
    r.2.wellFormed = true := by
  have hattach {name : String} {spec : Value} (hspec : spec.wellFormed = true)
      (h : attach name spec = .ok r) : r.2.wellFormed = true := by
    obtain ⟨-, rfl⟩ := attach_eq_ok_iff.1 h
    exact hspec
  cases call with
  | general => exact hattach (hw _ List.mem_cons_self) h
  | terms | histogram =>
    obtain ⟨_, -, h⟩ := Checked.bind_eq_ok_iff.1 h
    obtain ⟨_, -, h⟩ := Checked.bind_eq_ok_iff.1 h
    refine hattach ?_ h
    rw [Value.wellFormed_single]
    exact Value.wellFormed_pair (by decide) rfl rfl
  | dateHistogram name field interval =>
    obtain ⟨_, -, h⟩ := Checked.bind_eq_ok_iff.1 h
    obtain ⟨_, -, h⟩ := Checked.bind_eq_ok_iff.1 h
    have hkey : "field" ≠ intervalKey (trimmed interval) := by
      rw [intervalKey]
      split <;> decide
    refine hattach ?_ h
    rw [Value.wellFormed_single]
    exact Value.wellFormed_pair hkey rfl rfl
  | range =>
    obtain ⟨_, -, h⟩ := Checked.bind_eq_ok_iff.1 h
    obtain ⟨_, -, h⟩ := Checked.bind_eq_ok_iff.1 h
    refine hattach ?_ h
    rw [Value.wellFormed_single]
    exact Value.wellFormed_pair (by decide) rfl (Value.wellFormed_arr.2 hw)
  | filters =>
    obtain ⟨_, -, h⟩ := Checked.bind_eq_ok_iff.1 h
    obtain ⟨_, -, h⟩ := Checked.bind_eq_ok_iff.1 h
    refine hattach ?_ h
    rw [Value.wellFormed_single, Value.wellFormed_single]
    exact hw _ List.mem_cons_self
  | nested =>
    obtain ⟨_, -, h⟩ := Checked.bind_eq_ok_iff.1 h
    exact hattach (Value.wellFormed_pair (by decide) rfl (hw _ List.mem_cons_self)) h
  | metric m =>
    rw [check_metric] at h
    obtain ⟨_, -, h⟩ := Checked.bind_eq_ok_iff.1 h
    obtain rfl := Except.ok.inj h
    exact m.wellFormed_spec _
  | percentiles name field percents =>
    obtain ⟨_, -, h⟩ := Checked.bind_eq_ok_iff.1 h
    have hspec : (Value.single "percentiles" (.record
        [("field", some (.str field)),
         ("percents", percents.map fun ps => .arr (ps.map .ofDouble))])).wellFormed = true := by
      rw [Value.wellFormed_single]
      exact Value.wellFormed_record (by simp) (by simp [Value.wellFormed_arr])
    rcases percents with _ | percents
    · exact hattach hspec h
    · obtain ⟨_, -, h⟩ := Checked.bind_eq_ok_iff.1 h
      exact hattach hspec h

end AggregationCall

/-! ## Wrappers -/

/-- The JSON values that a wrapper is given. -/
def Wrapper.values : Wrapper → List Value
  | functionScore functions _ => functions
  | constantScore _ => []

/-- A wrapper is well formed if its functions are, and the query that it wraps. -/
theorem Wrapper.wellFormed_body {w : Wrapper} (hw : ∀ v ∈ w.values, v.wellFormed = true)
    {inner : Value} (hi : inner.wellFormed = true) : (w.body inner).wellFormed = true := by
  cases w with
  | functionScore functions options =>
    have hfunctions : (Value.arr functions).wellFormed = true := Value.wellFormed_arr.2 hw
    exact Value.wellFormed_record (by simp) (by simp [hi, hfunctions])
  | constantScore boost =>
    exact Value.wellFormed_pair (by decide) hi (Value.wellFormed_ofDouble boost)

/-! ## Steps -/

namespace Step

mutual

/-- The JSON values that a step is given, those included that its callback gives. -/
def values : Step → List Value
  | clause call => call.values
  | should steps => allValues steps
  | mustNot steps => allValues steps
  | embed _ _ steps => allValues steps
  | wrap w => w.values
  | setQuery query => [query]
  | sortWith _ options => options.missing.toList
  | highlightField _ options => [options]
  | searchAfter vs => vs
  | aggregate call => call.values
  | subAggregate _ _ spec => [spec]
  | _ => []
termination_by structural s => s

/-- The JSON values that steps are given, one after the other. -/
def allValues : List Step → List Value
  | [] => []
  | s :: rest => values s ++ allValues rest
termination_by structural steps => steps

end

/-- The JSON values that the step is given are well formed. -/
def WellFormed (s : Step) : Prop := ∀ v ∈ s.values, v.wellFormed = true

theorem WellFormed.of_single {s : Step} {v : Value} (hs : s.values = [v])
    (hv : v.wellFormed = true) : s.WellFormed := by
  rw [WellFormed, hs]
  exact List.forall_mem_singleton.2 hv

end Step

/-! ## Calls -/

namespace Call

/-- The JSON values that a call is given. The presets are given texts to search for. -/
def values : Call → List Value
  | step s => s.values
  | product (.searchProducts text) => [text]
  | article (.search text) => [text]
  | article (.phrase text) => [text]
  | product _ | log _ | report _ | article _ => []

/-- The JSON values that the call is given are well formed. -/
def WellFormed (call : Call) : Prop := ∀ v ∈ call.values, v.wellFormed = true

end Call

/-! ## Calls of the presets -/

theorem wellFormed_timeWindow {start stop : Instant} {field context : String} {window : Value}
    (h : timeWindow start stop field context = .ok window) : window.wellFormed = true := by
  obtain ⟨_, -, h⟩ := Checked.bind_eq_ok_iff.1 h
  obtain rfl := Except.ok.inj h
  exact Value.wellFormed_pair (by decide) rfl rfl

/-- A clause over a time window holds a well-formed range. -/
theorem allSteps_timeWindow {start stop : Instant} {field context : String} :
    AllSteps Step.WellFormed (do
      let window ← timeWindow start stop field context
      return [.clause (.range field window)]) := by
  intro steps h
  obtain ⟨window, hwindow, h⟩ := Checked.bind_eq_ok_iff.1 h
  exact AllSteps.single (.of_single rfl (wellFormed_timeWindow hwindow)) steps h

theorem ProductCall.wellFormed_steps {call : ProductCall} (hw : (Call.product call).WellFormed) :
    AllSteps Step.WellFormed call.steps := by
  cases call with
  | searchProducts text => exact .single hw
  | priceRange min max =>
    refine .bind fun _ => .bind fun _ => .single (.of_single rfl ?_)
    exact Value.wellFormed_record (by simp) (by simp)
  | inStock | category => exact .single (.of_single rfl rfl)
  | brands names => exact .single (Value.wellFormed_strs names)
  | minRating rating =>
    refine .bind fun _ => .single (.of_single rfl ?_)
    simp
  | sortByPrice | sortByPopularity => exact .single nofun
  | withFacets =>
    have hbands : ∀ v ∈ priceBands, v.wellFormed = true := by decide
    refine .ok fun s hs => ?_
    simp only [List.mem_cons, List.not_mem_nil, or_false] at hs
    rcases hs with rfl | rfl | rfl
    · exact nofun
    · exact hbands
    · exact nofun

theorem LogCall.wellFormed_steps (call : LogCall) : AllSteps Step.WellFormed call.steps := by
  cases call with
  | timeRange => exact allSteps_timeWindow
  | levels names => exact .single (Value.wellFormed_strs names)
  | errorsOnly => exact .single (Value.wellFormed_strs ["error", "fatal"])
  | newestFirst => exact .single nofun
  | withTimeline =>
    refine .ok fun s hs => ?_
    simp only [List.mem_cons, List.not_mem_nil, or_false] at hs
    rcases hs with rfl | rfl <;> exact nofun
  | level | service | messageContains | excludeService =>
    exact .single (.of_single rfl rfl)

theorem ReportCall.wellFormed_steps (call : ReportCall) : AllSteps Step.WellFormed call.steps := by
  cases call with
  | dateRange => exact allSteps_timeWindow
  | metricPerBucket bucket name m field =>
    exact .single (.of_single rfl (m.wellFormed_spec field))
  | aggregationsOnly | groupBy | overTime | metric => exact .single nofun

theorem ArticleCall.wellFormed_decayFunction (origin : Instant) (scale : String) :
    (decayFunction origin scale).wellFormed = true := by
  simp [decayFunction, Value.wellFormed, Value.wellFormedMembers]

theorem ArticleCall.wellFormed_steps {call : ArticleCall} (hw : (Call.article call).WellFormed) :
    AllSteps Step.WellFormed call.steps := by
  cases call with
  | search | phrase => exact .single hw
  | tags names => exact .single (Value.wellFormed_strs names)
  | publishedBetween => exact allSteps_timeWindow
  | highlightMatches => exact .single nofun
  | boostRecent origin scale =>
    exact .bind fun _ => .single (.of_single rfl (wellFormed_decayFunction origin scale))
  | author | excludeDrafts => exact .single (.of_single rfl rfl)

/-- **Steps of calls.** Presets give well-formed values to the steps that they stand for. -/
theorem Call.wellFormed_steps {call : Call} (hw : call.WellFormed) :
    AllSteps Step.WellFormed call.steps := by
  cases call with
  | step s => exact .single hw
  | product call => exact call.wellFormed_steps hw
  | log call => exact call.wellFormed_steps
  | report call => exact call.wellFormed_steps
  | article call => exact call.wellFormed_steps hw

end SearchRequest

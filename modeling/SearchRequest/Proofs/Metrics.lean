import SearchRequest.Proofs.Extending

/-!
# Metrics at the top and under a bucket

A report attaches a metric in two ways. At the top it is attached by a helper, which checks the name
and the field of the metric. Under a bucket the specification is written first, and handed to the
general call for children, which checks names and takes any object: the field is in the
specification by then, and is not looked at.

* `Builder.perform_metric_cases`, `Builder.perform_metricPerBucket_cases` — the outcomes of the two
  calls.
* `Builder.metrics_alike` — the calls agree, in what they accept and in what they attach, but for a
  blank field. The call under a bucket takes one.
-/

namespace SearchRequest

/-- An aggregation is found under its name in the written document. -/
theorem Document.at?_attach (d : Document) (name : String) (spec : Value) :
    (d.attach name spec).toValue.at? ["aggregations", name] = some spec := by
  have hfield : ("aggregations", some (Value.obj ((d.aggregations.getD []).insert name spec))) ∈
      (d.attach name spec).written := by
    simp [written, attach]
  rw [at?_field hfield, Value.at?_obj, Object.find?_insert_self]
  rfl

/-- The names of the aggregations are not blank. -/
theorem Document.NamedAggregations.isBlank_eq_false {d : Document} {name : String}
    (h : d.NamedAggregations) (hname : name ∈ (d.aggregations.getD []).keys) :
    isBlank name = false := by
  rcases ha : d.aggregations with _ | aggs
  · rw [ha] at hname
    cases hname
  · rw [ha] at hname
    obtain ⟨m, hm, rfl⟩ := List.mem_map.1 hname
    exact ((h aggs ha).2 m hm).1

/-- Of a metric the name is checked first, then the field. -/
theorem AggregationCall.fieldAggregation_eq (context name kind field : String) :
    fieldAggregation context name kind field =
      if isBlank name then .error (Fault.aggregationNameBlank.reject "name" context)
      else if isBlank field then .error (Fault.fieldNameBlank.reject field context)
      else .ok (name, .single kind (.single "field" (.str field))) := by
  simp only [fieldAggregation, nameAndField, Argument.aggregationName, Argument.fieldName, require]
  cases isBlank name <;> cases isBlank field <;> rfl

/-- The kinds of metrics are the same under a bucket as at the top. -/
theorem ReportCall.bucketKind_eq (m : Metric) : bucketKind m = m.kind := by
  cases m <;> rfl

namespace Builder

/-! ## The two calls -/

/-- The outcomes at the top: the name is refused, or the field, or the metric is attached. -/
theorem perform_metric_cases (b : Builder) (m : Metric) (name field : String) :
    let after := b.perform (.report (.metric name m field))
    (isBlank name = true ∧
        after = (b, some (Fault.aggregationNameBlank.reject "name" (m.kind ++ "_agg")))) ∨
      (isBlank name = false ∧ isBlank field = true ∧
        after = (b, some (Fault.fieldNameBlank.reject field (m.kind ++ "_agg")))) ∨
      isBlank name = false ∧ isBlank field = false ∧
        after = ({ b with document := b.document.attach name (m.spec field) }, none) := by
  intro after
  have hafter : after = b.perform (.step (.aggregate (.metric m name field))) := rfl
  have hedit : (Step.aggregate (.metric m name field)).edit b.config =
      (AggregationCall.metric m name field).check.map fun r => .attach r.1 r.2 := by
    rw [Step.edit]
  rw [AggregationCall.check_metric, AggregationCall.fieldAggregation_eq] at hedit
  rw [hafter]
  cases hname : isBlank name with
  | true =>
    rw [hname] at hedit
    exact .inl ⟨rfl, perform_of_edit_error hedit⟩
  | false =>
    cases hfield : isBlank field with
    | true =>
      rw [hname, hfield] at hedit
      exact .inr (.inl ⟨rfl, rfl, perform_of_edit_error hedit⟩)
    | false =>
      rw [hname, hfield] at hedit
      exact .inr (.inr ⟨rfl, rfl, perform_of_edit hedit rfl⟩)

/-- The outcomes under an aggregation that is there: the name is refused, or the metric is attached
to the children. -/
theorem perform_metricPerBucket_cases {b : Builder} {bucket : String}
    (hb : b.document.NamedAggregations)
    (hbucket : bucket ∈ (b.document.aggregations.getD []).keys) (m : Metric) (name field : String) :
    let after := b.perform (.report (.metricPerBucket bucket name m field))
    (isBlank name = true ∧
        after = (b, some (Fault.aggregationNameBlank.reject "name" "sub_aggregate"))) ∨
      isBlank name = false ∧ after.2 = none ∧
        after.1.document.toValue.at? ["aggregations", bucket, "aggs", name] =
          some (m.spec field) := by
  intro after
  have hafter : after = b.perform (.step (.subAggregate bucket name (m.spec field))) := by
    rw [Metric.spec, ← ReportCall.bucketKind_eq]
    rfl
  have hparent := hb.isBlank_eq_false hbucket
  rw [hafter]
  cases hname : isBlank name with
  | true =>
    have hedit : (Step.subAggregate bucket name (m.spec field)).edit b.config =
        .error (Fault.aggregationNameBlank.reject "name" "sub_aggregate") :=
      Step.edit_subAggregate_eq_error_iff.2 (.inl ⟨.inr hname, rfl⟩)
    exact .inl ⟨rfl, perform_of_edit_error hedit⟩
  | false =>
    have hargs : ChildArguments bucket name (m.spec field) := ⟨hparent, hname, rfl⟩
    rcases perform_subAggregate_cases hb bucket name (m.spec field) with
      ⟨hnot, -⟩ | ⟨-, hmissing, -⟩ | ⟨-, -, own, -, hdone⟩
    · exact absurd hargs hnot
    · exact absurd hbucket hmissing
    · rw [hdone]
      exact .inr ⟨rfl, rfl, b.document.at?_child bucket own name (m.spec field)⟩

/-! ## Together -/

/-- **Metrics at the top and under a bucket**, after any calls. With a field that is not blank the
two calls are accepted alike, and when they are, what stands in the written document is the same
specification. Both refuse a blank name. A blank field is refused at the top only: under a bucket
the metric is attached over it. -/
theorem metrics_alike (config : Config) (calls : List Call) {bucket : String}
    (h : bucket ∈ (((start config).run calls).document.aggregations.getD []).keys)
    (m : Metric) (name field : String) :
    let b := (start config).run calls
    let top := b.perform (.report (.metric name m field))
    let child := b.perform (.report (.metricPerBucket bucket name m field))
    ((child.2 = none ↔ top.2 = none) ↔ isBlank name = true ∨ isBlank field = false) ∧
      (top.2 = none ↔ isBlank name = false ∧ isBlank field = false) ∧
      (top.2 = none → child.2 = none ∧
        top.1.document.toValue.at? ["aggregations", name] = some (m.spec field) ∧
        child.1.document.toValue.at? ["aggregations", bucket, "aggs", name] =
          some (m.spec field)) ∧
      (isBlank name = true →
        top = (b, some (Fault.aggregationNameBlank.reject "name" (m.kind ++ "_agg"))) ∧
        child = (b, some (Fault.aggregationNameBlank.reject "name" "sub_aggregate"))) ∧
      (isBlank name = false → isBlank field = true →
        top = (b, some (Fault.fieldNameBlank.reject field (m.kind ++ "_agg"))) ∧
        child.2 = none ∧
        child.1.document.toValue.at? ["aggregations", bucket, "aggs", name] =
          some (m.spec field)) := by
  intro b top child
  have hb : b.document.NamedAggregations := namedObjects_run config calls
  have hchild : isBlank name = true ∧
        child = (b, some (Fault.aggregationNameBlank.reject "name" "sub_aggregate")) ∨
      isBlank name = false ∧ child.2 = none ∧
        child.1.document.toValue.at? ["aggregations", bucket, "aggs", name] =
          some (m.spec field) := perform_metricPerBucket_cases hb h m name field
  rcases b.perform_metric_cases m name field with
    ⟨hname, htop⟩ | ⟨hname, hfield, htop⟩ | ⟨hname, hfield, htop⟩
  -- under the bucket the name alone decides
  all_goals
    change top = _ at htop
    simp only [hname, Bool.true_eq_false, Bool.false_eq_true, true_and, false_and, or_false,
      false_or] at hchild
  · simp [htop, hchild, hname]
  · simp [htop, hchild, hname, hfield]
  · have hdone : top.2 = none := by rw [htop]
    have hspec : top.1.document.toValue.at? ["aggregations", name] = some (m.spec field) := by
      rw [htop]
      exact b.document.at?_attach name (m.spec field)
    simp [hdone, hspec, hchild, hname, hfield]

/-- Both calls write the field as it is given, with the blanks around it. -/
theorem metrics_alike_by_region :
    let calls : List Call := [.report (.groupBy "regions" "region" 10)]
    let b := (start {}).run calls
    let top := b.perform (.report (.metric "spread" .stats " price"))
    let child := b.perform (.report (.metricPerBucket "regions" "spread" .stats " price"))
    let spread := Metric.stats.spec " price"
    "regions" ∈ (b.document.aggregations.getD []).keys ∧ top.2 = none ∧ child.2 = none ∧
      top.1.document.toValue.at? ["aggregations", "spread"] = some spread ∧
      child.1.document.toValue.at? ["aggregations", "regions", "aggs", "spread"] =
        some spread := by
  intro calls b top child spread
  have hbucket : "regions" ∈ (b.document.aggregations.getD []).keys := by decide
  obtain ⟨-, hdone, hboth, -⟩ := metrics_alike {} calls hbucket .stats "spread" " price"
  have htop : top.2 = none := hdone.2 ⟨by decide, by decide⟩
  exact ⟨hbucket, htop, hboth htop⟩

/-- Under a bucket a metric is attached over a blank field, which is refused at the top. -/
theorem metrics_differ_over_blank :
    let b := (start {}).run [.report (.groupBy "regions" "region" 10)]
    let top := b.perform (.report (.metric "x" .avg " "))
    let child := b.perform (.report (.metricPerBucket "regions" "x" .avg " "))
    "regions" ∈ (b.document.aggregations.getD []).keys ∧
      top = (b, some (Fault.fieldNameBlank.reject " " "avg_agg")) ∧ child.2 = none ∧
      child.1.document.toValue.at? ["aggregations", "regions", "aggs", "x", "avg", "field"] =
        some (.str " ") := by
  intro b top child
  exact ⟨by decide, rfl, rfl, rfl⟩

end Builder

end SearchRequest

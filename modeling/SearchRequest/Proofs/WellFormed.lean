import SearchRequest.Proofs.Arguments
import SearchRequest.Proofs.Reached
import SearchRequest.Proofs.Spelling

/-!
# Well-formed documents

No object in a document that is sent has a key twice, provided that none has in the JSON that the
builder was given. A document is put together from parts: clauses, parameters of adopted queries,
specifications, options. `Document.WellFormed` says that the parts are well formed, and
`Document.WellFormed.toValue` that what is written of them is.

The main statement is `Builder.parse_toJson`. A document is sent as text, and a reader of JSON finds
in this text the very value that was sent, with all keys in their order, as long as all numbers in
it are integers that fit.
-/

namespace SearchRequest

/-! ## Bool queries -/

namespace BoolQuery

/-- A section that the finalizer leaves is there as it was. -/
theorem eq_of_pruned {C : Type} {cs? : Option (List C)} {cs : List C} (h : pruned cs? = some cs) :
    cs? = some cs := by
  rcases cs? with _ | _ | ⟨c, rest⟩
  · cases h
  · cases h
  · exact h

/-- The clauses of the query are written well formed, and its parameters are well formed. -/
structure WellFormed (b : BoolQuery Clause) : Prop where
  clauses {s : Section} {cs : List Clause} (h : b.get s = some cs) :
    ∀ c ∈ cs, c.toValue.wellFormed = true
  minimum {v : Value} (h : b.minimumShouldMatch = some v) : v.wellFormed = true
  extra : (Value.obj b.extra).wellFormed = true

namespace WellFormed

variable {b : BoolQuery Clause}

theorem empty : ({} : BoolQuery Clause).WellFormed where
  clauses {s} _ h := by cases s <;> cases h
  minimum h := by cases h
  extra := rfl

theorem wrapper : (BoolQuery.wrapper : BoolQuery Clause).WellFormed where
  clauses {s} _ h := by
    cases s <;> (obtain rfl := Option.some.inj h; exact nofun)
  minimum h := by cases h
  extra := rfl

theorem set (h : b.WellFormed) (s : Section) {cs : List Clause}
    (hcs : ∀ c ∈ cs, c.toValue.wellFormed = true) : (b.set s (some cs)).WellFormed where
  clauses {t} cs' ht := by
    by_cases hts : t = s
    · subst hts
      rw [get_set_self] at ht
      obtain rfl := Option.some.inj ht
      exact hcs
    · rw [get_set_of_ne b _ hts] at ht
      exact h.clauses ht
  minimum hm := by
    rw [minimumShouldMatch_set] at hm
    exact h.minimum hm
  extra := by
    rw [extra_set]
    exact h.extra

theorem setMinimum (h : b.WellFormed) {v : Value} (hv : v.wellFormed = true) :
    { b with minimumShouldMatch := some v }.WellFormed where
  clauses {s} cs hs := by
    have hg : b.get s = some cs := by
      cases s <;> exact hs
    exact h.clauses hg
  minimum hm := by
    obtain rfl := Option.some.inj hm
    exact hv
  extra := h.extra

theorem insert (h : b.WellFormed) (key : String) {v : Value} (hv : v.wellFormed = true) :
    { b with extra := b.extra.insert key v }.WellFormed where
  clauses {s} cs hs := by
    have hg : b.get s = some cs := by
      cases s <;> exact hs
    exact h.clauses hg
  minimum := h.minimum
  extra := Value.wellFormed_insert h.extra key hv

/-- A value that waits for a section is well formed, and so are the clauses that are there. -/
theorem upcoming (h : b.WellFormed) (s : Section) :
    ∀ c ∈ b.upcoming .raw s, c.toValue.wellFormed = true := by
  intro c hc
  rcases hg : b.get s with _ | cs
  · rw [upcoming_of_absent hg, Option.mem_toList, Option.map_eq_some_iff] at hc
    obtain ⟨v, hv, rfl⟩ := hc
    exact Object.wellFormed_of_find? h.extra hv
  · rw [upcoming_of_get hg] at hc
    exact h.clauses hg c hc

theorem install (h : b.WellFormed) (s : Section) : (b.install .raw s).WellFormed where
  clauses {t} cs ht := by
    rw [get_install] at ht
    by_cases hts : t = s
    · rw [if_pos hts] at ht
      obtain rfl := Option.some.inj ht
      exact h.upcoming s
    · rw [if_neg hts] at ht
      exact h.clauses ht
  minimum hm := by
    rw [minimumShouldMatch_install] at hm
    exact h.minimum hm
  extra := by
    rw [extra_install]
    split
    · exact Value.wellFormed_erase h.extra s.text
    · exact h.extra

theorem installAll (h : b.WellFormed) : (b.installAll .raw).WellFormed :=
  List.foldlRecOn Section.all _ h fun _ hb s _ => hb.install s

theorem append (h : b.WellFormed) (s : Section) {cs : List Clause}
    (hcs : ∀ c ∈ cs, c.toValue.wellFormed = true) : (b.append .raw s cs).WellFormed := by
  refine (h.install s).set s (List.forall_mem_append.2 ⟨?_, hcs⟩)
  rw [BoolQuery.clauses, get_install, if_pos rfl, Option.getD_some]
  exact h.upcoming s

theorem prune (h : b.WellFormed) : b.prune.WellFormed where
  clauses {s} cs hs := by
    rw [get_prune] at hs
    exact h.clauses (eq_of_pruned hs)
  minimum := h.minimum
  extra := h.extra

/-- Taking over a member of a well-formed bool query. -/
theorem adoptMember (h : b.WellFormed) (key : String) {v : Value} (hv : v.wellFormed = true) :
    (b.adoptMember .raw key v).WellFormed := by
  unfold BoolQuery.adoptMember
  rcases Section.ofText? key with _ | s
  · by_cases hk : key = minimumKey
    · simp only [if_pos hk]
      exact h.setMinimum hv
    · simp only [if_neg hk]
      exact h.insert key hv
  · cases v with
    | arr items =>
      refine h.set s fun c hc => ?_
      obtain ⟨item, hitem, rfl⟩ := List.mem_map.1 hc
      exact Value.wellFormed_arr.1 hv item hitem
    | obj members => exact h.set s (List.forall_mem_singleton.2 hv)
    | _ => exact h.insert key hv

/-- A bool query that is adopted from a well-formed one. -/
theorem of_adopt {v : Value} (hv : v.wellFormed = true) (ha : adopt .raw v = .ok b) :
    b.WellFormed := by
  obtain ⟨members, rfl, rfl⟩ := adopt_eq_ok_iff.1 ha
  refine List.foldlRecOn members _ empty fun b hb m hm => ?_
  exact hb.adoptMember m.1 ((Value.wellFormed_obj.1 hv).2 m hm)

/-- **A written bool query** is well formed. Its sections are written into its other parameters. -/
theorem toValue (h : b.WellFormed) : b.toValue.wellFormed = true := by
  have hsections : (Value.obj
      (Section.all.foldl (b.map Clause.toValue).renderSection b.extra)).wellFormed = true := by
    refine List.foldlRecOn (motive := fun members => (Value.obj members).wellFormed = true)
      Section.all _ h.extra fun members hm s _ => ?_
    rw [renderSection, get_map]
    rcases hg : b.get s with _ | cs
    · exact hm
    · refine Value.wellFormed_insert hm s.text (Value.wellFormed_arr.2 fun v hv => ?_)
      obtain ⟨c, hc, rfl⟩ := List.mem_map.1 hv
      exact h.clauses hg c hc
  rw [BoolQuery.toValue, render, members, minimumShouldMatch_map, extra_map]
  rcases hb : b.minimumShouldMatch with _ | v
  · exact hsections
  · exact Value.wellFormed_insert hsections minimumKey (h.minimum hb)

end WellFormed

end BoolQuery

/-! ## Query roots -/

namespace QueryRoot

/-- The bool query and the other queries are well formed. -/
structure WellFormed (q : QueryRoot Clause) : Prop where
  bool {b : BoolQuery Clause} (h : q.bool = some b) : b.WellFormed
  named : (Value.obj q.named).wellFormed = true

namespace WellFormed

variable {q : QueryRoot Clause}

theorem wrapper : (QueryRoot.wrapper : QueryRoot Clause).WellFormed where
  bool h := by
    obtain rfl := Option.some.inj h
    exact .wrapper
  named := rfl

theorem ofNamed (kind : String) {body : Value} (h : body.wellFormed = true) :
    (QueryRoot.ofNamed kind body : QueryRoot Clause).WellFormed where
  bool h := by cases h
  named := by
    rw [← Value.wellFormed_single kind] at h
    exact h

theorem matchAll : (QueryRoot.matchAll : QueryRoot Clause).WellFormed := ofNamed matchAllKey rfl

/-- Edits of the bool query that keep it well formed keep the root well formed. -/
theorem editBool (h : q.WellFormed) {f : BoolQuery Clause → BoolQuery Clause}
    (hf : ∀ b, b.WellFormed → (f b).WellFormed) : (q.editBool .raw f).WellFormed where
  bool hb := by
    obtain rfl := Option.some.inj hb
    refine hf _ ?_
    rw [ensuredBool]
    rcases hq : q.bool with _ | b
    · exact BoolQuery.WellFormed.empty.installAll
    · exact (h.bool hq).installAll
  named := h.named

theorem finalized (h : q.WellFormed) : q.finalized.WellFormed := by
  obtain ⟨bool, named⟩ := q
  rcases bool with _ | b
  · exact h
  · rw [QueryRoot.finalized]
    by_cases he : b.prune.isEmpty = true
    · simp only [if_pos he]
      exact .matchAll
    · simp only [if_neg he]
      refine ⟨fun hb => ?_, h.named⟩
      obtain rfl := Option.some.inj hb
      exact (h.bool rfl).prune

/-- A query that is adopted from a well-formed one. -/
theorem of_adopt {v : Value} (hv : v.wellFormed = true) (h : adopt .raw v = .ok q) :
    q.WellFormed := by
  obtain ⟨members, rfl, ⟨-, rfl⟩ | ⟨body, b, hbody, ha, rfl⟩⟩ := adopt_eq_ok_iff.1 h
  · exact ⟨nofun, hv⟩
  · refine ⟨fun hb => ?_, Value.wellFormed_erase hv boolKey⟩
    obtain rfl := Option.some.inj hb
    exact .of_adopt (Object.wellFormed_of_find? hv hbody) ha

theorem mergeable (h : q.WellFormed) : ∀ c ∈ q.mergeable, c.toValue.wellFormed = true := by
  rw [QueryRoot.mergeable]
  rcases hb : q.bool with _ | b
  · exact fun _ hc => absurd hc List.not_mem_nil
  · have hclauses (s : Section) : ∀ c ∈ b.clauses s, c.toValue.wellFormed = true := by
      rw [BoolQuery.clauses]
      rcases hg : b.get s with _ | cs
      · exact fun _ hc => absurd hc List.not_mem_nil
      · exact (h.bool hb).clauses hg
    exact List.forall_mem_append.2 ⟨hclauses .must, hclauses .filter⟩

/-- **A written query** is well formed. -/
theorem toValue (h : q.WellFormed) : q.toValue.wellFormed = true := by
  obtain ⟨bool, named⟩ := q
  rcases bool with _ | b
  · exact h.named
  · exact Value.wellFormed_insert h.named boolKey (h.bool rfl).toValue

end WellFormed

end QueryRoot

/-! ## Documents -/

namespace Document

/-- All parts of the document are well formed. -/
structure WellFormed (d : Document) : Prop where
  query {q : QueryRoot Clause} (h : d.query = some q) : q.WellFormed
  sort {specs : List SortSpec} (h : d.sort = some specs) :
    ∀ s ∈ specs, s.toValue.wellFormed = true
  aggregations {aggs : Object} (h : d.aggregations = some aggs) : (Value.obj aggs).wellFormed = true
  highlight {hl : Highlight} (h : d.highlight = some hl) : (Value.obj hl.fields).wellFormed = true
  searchAfter {values : List Value} (h : d.searchAfter = some values) :
    ∀ v ∈ values, v.wellFormed = true

end Document

/-- What the edit brings into a document is well formed. -/
def Edit.WellFormed : Edit → Prop
  | append _ cs => ∀ c ∈ cs, c.toValue.wellFormed = true
  | wrap w => ∀ v ∈ w.values, v.wellFormed = true
  | replaceQuery query => query.WellFormed
  | addSort spec => spec.toValue.wellFormed = true
  | setHighlight hl => (Value.obj hl.fields).wellFormed = true
  | addHighlight _ options => options.wellFormed = true
  | setSearchAfter values => ∀ v ∈ values, v.wellFormed = true
  | attach _ spec => spec.wellFormed = true
  | attachUnder _ _ spec => spec.wellFormed = true
  | _ => True

namespace Document.WellFormed

variable {d : Document}

theorem fresh : Document.fresh.WellFormed where
  query h := by
    obtain rfl := Option.some.inj h
    exact .wrapper
  sort h := by cases h
  aggregations h := by cases h
  highlight h := by cases h
  searchAfter h := by cases h

/-- Edits of the query touch no other part. -/
theorem withQuery (h : d.WellFormed) {q : QueryRoot Clause} (hq : q.WellFormed) :
    { d with query := some q }.WellFormed :=
  { h with query := fun he => Option.some.inj he ▸ hq }

theorem editBool (h : d.WellFormed) {f : BoolQuery Clause → BoolQuery Clause}
    (hf : ∀ b, b.WellFormed → (f b).WellFormed) : (d.editBool f).WellFormed := by
  have hquery : (d.query.getD {}).WellFormed := by
    rcases hd : d.query with _ | q
    · exact ⟨nofun, rfl⟩
    · exact h.query hd
  exact h.withQuery (hquery.editBool hf)

theorem embeddable (h : d.WellFormed) : d.embeddable.WellFormed := by
  rw [Document.embeddable]
  rcases hd : d.query with _ | q
  · exact .matchAll
  · exact (h.query hd).finalized

theorem mergeable (h : d.WellFormed) : ∀ c ∈ d.mergeable, c.toValue.wellFormed = true := by
  rcases hd : d.query with _ | q
  · rw [Document.mergeable, bool?, hd]
    exact fun _ hc => absurd hc List.not_mem_nil
  · rw [mergeable_of_query hd]
    exact (h.query hd).mergeable

theorem attach (h : d.WellFormed) (name : String) {spec : Value} (hs : spec.wellFormed = true) :
    (d.attach name spec).WellFormed := by
  refine { h with aggregations := fun ha => ?_ }
  obtain rfl := Option.some.inj ha
  refine Value.wellFormed_insert ?_ name hs
  rcases hd : d.aggregations with _ | aggs
  · rfl
  · exact h.aggregations hd

theorem attachUnder? (h : d.WellFormed) {parent name : String} {spec : Value} {d' : Document}
    (hs : spec.wellFormed = true) (hd : d.attachUnder? parent name spec = some d') :
    d'.WellFormed := by
  obtain ⟨p, hp, rfl⟩ := Option.map_eq_some_iff.1 hd
  obtain ⟨v, hv, hobject⟩ := Option.bind_eq_some_iff.1 hp
  obtain ⟨aggs, haggs, hf⟩ := Option.bind_eq_some_iff.1 hv
  have hparent : (Value.obj p).wellFormed = true := by
    cases v with
    | obj members =>
      obtain rfl := Option.some.inj hobject
      exact Object.wellFormed_of_find? (h.aggregations haggs) hf
    | _ => cases hobject
  have hchildren : (Value.obj (children p)).wellFormed = true := by
    rw [children]
    split
    · next hc => exact Object.wellFormed_of_find? hparent hc
    · rfl
  exact h.attach parent
    (Value.wellFormed_insert hparent childrenKey (Value.wellFormed_insert hchildren name hs))

theorem addHighlight (h : d.WellFormed) (field : String) {options : Value}
    (ho : options.wellFormed = true) : (d.addHighlight field options).WellFormed := by
  refine { h with highlight := fun hh => ?_ }
  obtain rfl := Option.some.inj hh
  refine Value.wellFormed_insert ?_ field ho
  rcases hd : d.highlight with _ | hl
  · rfl
  · exact h.highlight hd

theorem addSort (h : d.WellFormed) {spec : SortSpec} (hs : spec.toValue.wellFormed = true) :
    { d with sort := some (d.sort.getD [] ++ [spec]) }.WellFormed := by
  refine { h with sort := fun hd => ?_ }
  obtain rfl := Option.some.inj hd
  refine List.forall_mem_append.2 ⟨?_, List.forall_mem_singleton.2 hs⟩
  rcases hsort : d.sort with _ | specs
  · exact nofun
  · exact h.sort hsort

end Document.WellFormed

/-- **Well-formed edits keep documents well formed.** -/
theorem Edit.WellFormed.apply {e : Edit} {d d' : Document} (he : e.WellFormed) (h : d.WellFormed)
    (hd : e.apply d = .ok d') : d'.WellFormed := by
  cases e with
  | append s cs =>
    obtain rfl := Except.ok.inj hd
    exact h.editBool fun b hb => hb.append s he
  | installBool =>
    obtain rfl := Except.ok.inj hd
    exact h.editBool fun b hb => hb
  | setMinimum count =>
    obtain rfl := Except.ok.inj hd
    exact h.editBool fun b hb => hb.setMinimum rfl
  | wrap w =>
    obtain rfl := Except.ok.inj hd
    exact h.withQuery (.ofNamed w.kind (w.wellFormed_body he h.embeddable.toValue))
  | replaceQuery query =>
    obtain rfl := Except.ok.inj hd
    exact h.withQuery he
  | reset =>
    obtain rfl := Except.ok.inj hd
    exact .fresh
  | addSort spec =>
    obtain rfl := Except.ok.inj hd
    exact h.addSort he
  | setHighlight hl =>
    obtain rfl := Except.ok.inj hd
    exact { h with highlight := fun hh => Option.some.inj hh ▸ he }
  | addHighlight field options =>
    obtain rfl := Except.ok.inj hd
    exact h.addHighlight field he
  | setSearchAfter values =>
    obtain rfl := Except.ok.inj hd
    exact { h with searchAfter := fun hs => Option.some.inj hs ▸ he }
  | attach name spec =>
    obtain rfl := Except.ok.inj hd
    exact h.attach name he
  | attachUnder parent name spec =>
    exact h.attachUnder? he (apply_attachUnder_eq_ok_iff.1 hd)
  | _ =>
    obtain rfl := Except.ok.inj hd
    exact { h with }

/-! ## Written documents -/

theorem SortSpec.wellFormed_detailed (field : String) {options : SortOptions}
    (h : ∀ v ∈ options.missing, v.wellFormed = true) :
    (SortSpec.detailed field options).toValue.wellFormed = true := by
  rw [toValue, Value.wellFormed_single]
  refine Value.wellFormed_record (by simp) ?_
  simpa using h

theorem Highlight.wellFormed_toValue {hl : Highlight}
    (h : (Value.obj hl.fields).wellFormed = true) : hl.toValue.wellFormed = true := by
  refine Value.wellFormed_record (by simp [HighlightOptions.fields]) ?_
  simp [HighlightOptions.fields, h]

/-- A sort list that the finalizer leaves is there as it was. -/
theorem Document.eq_of_finalSort {specs? : Option (List SortSpec)} {specs : List SortSpec}
    (h : finalSort specs? = some specs) : specs? = some specs := by
  rcases specs? with _ | _ | ⟨spec, rest⟩
  · cases h
  · cases h
  · exact h

namespace Document.WellFormed

variable {d : Document}

theorem finalized (h : d.WellFormed) : d.finalized.WellFormed :=
  { h with
    query := fun hq => by
      obtain ⟨q, hd, rfl⟩ := Option.map_eq_some_iff.1 hq
      exact (h.query hd).finalized
    sort := fun hs => h.sort (eq_of_finalSort hs) }

/-- **A written document** is well formed. -/
theorem toValue (h : d.WellFormed) : d.toValue.wellFormed = true := by
  have hsort : ∀ specs, d.sort = some specs →
      (Value.arr (specs.map SortSpec.toValue)).wellFormed = true := by
    intro specs hs
    refine Value.wellFormed_arr.2 fun v hv => ?_
    obtain ⟨spec, hspec, rfl⟩ := List.mem_map.1 hv
    exact h.sort hs spec hspec
  have hsource (filter : SourceFilter) : filter.toValue.wellFormed = true := by
    cases filter with
    | enabled => rfl
    | fields names => exact Value.wellFormed_strings names
  refine Value.wellFormed_record (by simp) ?_
  simp only [List.forall_mem_cons]
  exact
    ⟨Value.wellFormed_map fun _ _ => rfl,
     Value.wellFormed_map fun _ _ => rfl,
     Value.wellFormed_map fun _ hq => (h.query hq).toValue,
     Value.wellFormed_map hsort,
     Value.wellFormed_map fun filter _ => hsource filter,
     Value.wellFormed_map fun _ ha => h.aggregations ha,
     Value.wellFormed_map fun _ hh => Highlight.wellFormed_toValue (h.highlight hh),
     Value.wellFormed_map fun _ _ => rfl,
     Value.wellFormed_map fun score _ => Value.wellFormed_ofDouble score,
     Value.wellFormed_map fun _ ha => Value.wellFormed_arr.2 (h.searchAfter ha),
     nofun⟩

end Document.WellFormed

/-! ## Steps -/

namespace Step

variable {config : Config}

theorem wellFormed_plainHighlight (fields : List String) :
    (Value.obj (plainHighlight fields)).wellFormed = true := by
  refine List.foldlRecOn (motive := fun done => (Value.obj done).wellFormed = true) fields _ rfl
    fun done hdone field _ => ?_
  exact Value.wellFormed_insert hdone field rfl

mutual

/-- What a step brings into a document is well formed. -/
theorem wellFormed_edit (s : Step) {e : Edit} (hs : s.WellFormed) (he : s.edit config = .ok e) :
    e.WellFormed := by
  cases s with
  | clause call =>
    cases asks_of_edit he with
    | clause hc => exact List.forall_mem_singleton.2 (call.wellFormed_of_check hs hc)
  | should steps =>
    cases asks_of_edit he with
    | should hd => exact (wellFormed_runAll steps hs .fresh hd).mergeable
  | mustNot steps =>
    cases asks_of_edit he with
    | mustNot hd => exact (wellFormed_runAll steps hs .fresh hd).mergeable
  | embed link label steps =>
    cases asks_of_edit he with
    | embed hl hd =>
      have hsub := (wellFormed_runAll steps hs .fresh hd).embeddable
      exact List.forall_mem_singleton.2 (link.wellFormed_clause label hsub.toValue)
  | wrap w =>
    cases asks_of_edit he
    exact hs
  | setQuery v =>
    cases asks_of_edit he with
    | setQuery hq => exact .of_adopt (hs v List.mem_cons_self) hq
  | matchAll =>
    cases asks_of_edit he
    exact .matchAll
  | sort =>
    cases asks_of_edit he
    exact Value.wellFormed_single _ _
  | sortWith field options =>
    cases asks_of_edit he
    exact SortSpec.wellFormed_detailed field fun v hv => hs v (Option.mem_toList.2 hv)
  | highlight fields =>
    cases asks_of_edit he
    exact wellFormed_plainHighlight fields
  | highlightField field options =>
    cases asks_of_edit he
    exact hs options List.mem_cons_self
  | searchAfter =>
    cases asks_of_edit he
    exact hs
  | aggregate call =>
    cases asks_of_edit he with
    | aggregate hr => exact call.wellFormed_of_check hs hr
  | subAggregate parent name spec =>
    cases asks_of_edit he
    exact hs spec List.mem_cons_self
  | _ =>
    cases asks_of_edit he
    trivial
termination_by structural s

/-- Steps in a row keep a document well formed. -/
theorem wellFormed_runAll (steps : List Step) {d d' : Document}
    (hs : ∀ v ∈ allValues steps, v.wellFormed = true) (hd : d.WellFormed)
    (h : runAll config steps d = .ok d') : d'.WellFormed := by
  cases steps with
  | nil =>
    obtain rfl := Except.ok.inj h
    exact hd
  | cons s rest =>
    rw [runAll] at h
    obtain ⟨e, he, h⟩ := Checked.bind_eq_ok_iff.1 h
    obtain ⟨d₁, hd₁, h⟩ := Checked.bind_eq_ok_iff.1 h
    obtain ⟨hfirst, hrest⟩ := List.forall_mem_append.1 hs
    exact wellFormed_runAll rest hrest ((wellFormed_edit s hfirst he).apply hd hd₁) h
termination_by structural steps

end

end Step

/-! ## Runs -/

namespace Builder

/-- **Documents of builders are well formed**, after any calls that are given well-formed values. -/
theorem wellFormed_run {config : Config} {calls : List Call}
    (hw : ∀ call ∈ calls, call.WellFormed) : ((start config).run calls).document.WellFormed := by
  refine (run_preserves ?_ .fresh).1
  intro call hc steps hs s hm d d' hd h
  obtain ⟨e, he, h⟩ := Step.apply_eq_ok_iff.1 h
  exact (s.wellFormed_edit (Call.wellFormed_steps (hw call hc) steps hs s hm) he).apply hd h

/-- **Text is read back.** After any calls, those included that are rejected, a reader of JSON takes
in the whole text of the document that is sent, in either form, and finds the value that is sent,
if all numbers in this value are integers that fit. -/
theorem parse_toJson {config : Config} {calls : List Call} (hw : ∀ call ∈ calls, call.WellFormed)
    (hi : ((start config).run calls).toValue.integral = true) (pretty : Bool) :
    Value.parse? (((start config).run calls).toJson pretty) =
      some ((start config).run calls).toValue := by
  have hv : ((start config).run calls).toValue.wellFormed = true :=
    (wellFormed_run hw).finalized.toValue
  cases pretty with
  | false => exact Value.parse_text hv hi .compact
  | true => exact Value.parse_text hv hi .indented

/-- A raw clause with characters that are escaped, the least and the greatest integer, and empty
containers. -/
theorem parse_toJson_examples :
    let v : Value := .obj
      [("quote\" slash\\ line\n bell\x07 è", .arr []), ("", .obj []),
       ("limits", .arr [.int (-0x8000000000000000), .int 0xFFFFFFFFFFFFFFFF])]
    let b := (start {}).run [.step (.clause (.raw v)), .step (.size 20000), .step (.size 20)]
    b.toValue.at? ["query", "bool", "must"] = some (.arr [v]) ∧
      Value.parse? (b.toJson false) = some b.toValue ∧
      Value.parse? (b.toJson true) = some b.toValue := by
  intro v b
  have hw : ∀ call ∈ [Call.step (.clause (.raw v)), .step (.size 20000), .step (.size 20)],
      call.WellFormed := by
    intro call hc
    simp only [List.mem_cons, List.not_mem_nil, or_false] at hc
    rcases hc with rfl | rfl | rfl
    · exact Step.WellFormed.of_single rfl rfl
    · exact nofun
    · exact nofun
  exact ⟨rfl, parse_toJson hw rfl false, parse_toJson hw rfl true⟩

end Builder

end SearchRequest

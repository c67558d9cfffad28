import SearchRequest.Proofs.Asking
import SearchRequest.Proofs.ClauseRules

/-!
# Sound documents

The parts of a document beside the clauses follow rules as well: lists that are set are not empty,
names are not blank, and pages stay within the window of the configuration. `Document.Sound` says so
part by part. Readings of a document rely on it, and so do calls that change a part in its place.

* `Edit.Sound` — what an edit brings into a document, once the arguments of its call have passed.
* `Edit.Sound.apply` — such an edit leaves a sound document sound.
* `Builder.sound_run` — documents of builders are sound after any run.
-/

namespace SearchRequest

/-! ## The rules -/

/-- Objects under names that are not blank, one at least. -/
def Object.NamedObjects (members : Object) : Prop :=
  members ≠ [] ∧ ∀ m ∈ members, isBlank m.1 = false ∧ m.2.isObject = true

/-- The field that an entry sorts by, if the entry is not given as JSON. -/
def SortSpec.field? : SortSpec → Option String
  | byField field _ | detailed field _ => some field
  | raw _ => none

/-- The entry sorts by a field whose name is not blank. -/
def SortSpec.Named (spec : SortSpec) : Prop :=
  ∃ field, spec.field? = some field ∧ isBlank field = false

/-- The greatest integer of sixty-four bits with a sign. -/
def maxWord : Nat := 0x7FFFFFFFFFFFFFFF

/-- The rules for the parts of a document. The query is always there; what is said of another part
holds if it is set. -/
structure Document.Sound (config : Config) (d : Document) : Prop where
  query : d.query.isSome = true
  offset {n : Nat} (h : d.offset = some n) : n ≤ maxWord
  size {n : Nat} (h : d.size = some n) : n ≤ maxWord ∧ n ≤ config.maxResultWindow
  sort {specs : List SortSpec} (h : d.sort = some specs) : specs ≠ [] ∧ ∀ s ∈ specs, s.Named
  source {names : List String} (h : d.source = some (.fields names)) : FieldList names
  aggregations {aggs : Object} (h : d.aggregations = some aggs) : aggs.NamedObjects
  highlight {hl : Highlight} (h : d.highlight = some hl) : hl.fields.NamedObjects
  searchAfter {values : List Value} (h : d.searchAfter = some values) : values ≠ []
  minScore {score : Double} (h : d.minScore = some score) : score.isFinite = true

theorem Document.Sound.fresh {config : Config} : Document.fresh.Sound config where
  query := rfl
  offset h := by cases h
  size h := by cases h
  sort h := by cases h
  source h := by cases h
  aggregations h := by cases h
  highlight h := by cases h
  searchAfter h := by cases h
  minScore h := by cases h

/-! ## Edits -/

/-- What the edit brings into a document follows the rules. -/
def Edit.Sound (config : Config) : Edit → Prop
  | setOffset n => n ≤ maxWord
  | setSize n => n ≤ maxWord ∧ n ≤ config.maxResultWindow
  | addSort spec => spec.Named
  | setSource (.fields names) => FieldList names
  | setHighlight hl => hl.fields.NamedObjects
  | addHighlight field options => isBlank field = false ∧ options.isObject = true
  | setMinScore score => score.isFinite = true
  | setSearchAfter values => values ≠ []
  | attach name spec => isBlank name = false ∧ spec.isObject = true
  | _ => True

namespace Object.NamedObjects

/-- One more object, another one in the place of an earlier one, or the first one. -/
theorem insert {o : Option Object} (h : ∀ members, o = some members → NamedObjects members)
    {name : String} {v : Value} (hn : isBlank name = false) (hv : v.isObject = true) :
    NamedObjects ((o.getD []).insert name v) := by
  constructor
  · intro he
    have hf := find?_insert_self (o.getD []) name v
    rw [he] at hf
    cases hf
  · intro m hm
    rcases mem_insert hm with hm | rfl
    · rcases o with _ | members
      · cases hm
      · exact (h members rfl).2 m hm
    · exact ⟨hn, hv⟩

/-- Fields without options of their own. -/
theorem plainHighlight {fields : List String} (h : FieldList fields) :
    NamedObjects (plainHighlight fields) := by
  obtain ⟨hne, hblank⟩ := h
  cases fields with
  | nil => exact absurd rfl hne
  | cons field rest =>
    have hfirst := insert (o := none) nofun (hblank field List.mem_cons_self) (v := .obj []) rfl
    refine List.foldlRecOn rest _ hfirst fun done hdone field hf => ?_
    refine insert (o := some done) (fun members hm => ?_) ?_ rfl
    · obtain rfl := Option.some.inj hm
      exact hdone
    · exact hblank field (List.mem_cons_of_mem _ hf)

end Object.NamedObjects

namespace Document.Sound

variable {config : Config} {d : Document}

/-- Edits of the query touch no other part. -/
theorem withQuery (h : d.Sound config) (q : QueryRoot Clause) :
    { d with query := some q }.Sound config :=
  { h with query := rfl }

theorem attach (h : d.Sound config) {name : String} {spec : Value} (hn : isBlank name = false)
    (hs : spec.isObject = true) : (d.attach name spec).Sound config := by
  refine { h with aggregations := fun ha => ?_ }
  obtain rfl := Option.some.inj ha
  exact .insert (fun _ => h.aggregations) hn hs

/-- A child is attached to an aggregation that is there, whose name is not blank for that reason. -/
theorem attachUnder? (h : d.Sound config) {parent name : String} {spec : Value} {d' : Document}
    (hd : d.attachUnder? parent name spec = some d') : d'.Sound config := by
  obtain ⟨p, hp, rfl⟩ := Option.map_eq_some_iff.1 hd
  obtain ⟨v, hv, -⟩ := Option.bind_eq_some_iff.1 hp
  obtain ⟨aggs, ha, hf⟩ := Option.bind_eq_some_iff.1 hv
  have hparent := ((h.aggregations ha).2 _ (Object.mem_of_find? hf)).1
  exact h.attach hparent rfl

theorem addHighlight (h : d.Sound config) {field : String} {options : Value}
    (hf : isBlank field = false) (ho : options.isObject = true) :
    (d.addHighlight field options).Sound config := by
  refine { h with highlight := fun hh => ?_ }
  obtain rfl := Option.some.inj hh
  have hfields : (d.highlight.getD {}).fields = (d.highlight.map Highlight.fields).getD [] := by
    rcases d.highlight with _ | hl <;> rfl
  change ((d.highlight.getD {}).fields.insert field options).NamedObjects
  rw [hfields]
  refine .insert (fun fields hm => ?_) hf ho
  obtain ⟨hl, hl', rfl⟩ := Option.map_eq_some_iff.1 hm
  exact h.highlight hl'

theorem addSort (h : d.Sound config) {spec : SortSpec} (hs : spec.Named) :
    { d with sort := some (d.sort.getD [] ++ [spec]) }.Sound config := by
  refine { h with sort := fun hd => ?_ }
  obtain rfl := Option.some.inj hd
  refine ⟨List.append_ne_nil_of_right_ne_nil _ (List.cons_ne_nil _ _), fun s hm => ?_⟩
  rcases List.mem_append.1 hm with hm | hm
  · rcases hsort : d.sort with _ | specs
    · rw [hsort] at hm
      cases hm
    · rw [hsort] at hm
      exact (h.sort hsort).2 s hm
  · obtain rfl := List.mem_singleton.1 hm
    exact hs

end Document.Sound

namespace Edit.Sound

variable {config : Config} {e : Edit} {d d' : Document}

/-- **Sound edits keep documents sound.** -/
theorem apply (he : e.Sound config) (h : d.Sound config) (hd : e.apply d = .ok d') :
    d'.Sound config := by
  cases e with
  | append | installBool | setMinimum | wrap | replaceQuery =>
    obtain rfl := Except.ok.inj hd
    exact h.withQuery _
  | reset =>
    obtain rfl := Except.ok.inj hd
    exact .fresh
  | setOffset n =>
    obtain rfl := Except.ok.inj hd
    exact { h with offset := fun hn => Option.some.inj hn ▸ he }
  | setSize n =>
    obtain rfl := Except.ok.inj hd
    exact { h with size := fun hn => Option.some.inj hn ▸ he }
  | addSort spec =>
    obtain rfl := Except.ok.inj hd
    exact h.addSort he
  | setSource filter =>
    obtain rfl := Except.ok.inj hd
    refine { h with source := fun hs => ?_ }
    obtain rfl := Option.some.inj hs
    exact he
  | setHighlight hl =>
    obtain rfl := Except.ok.inj hd
    exact { h with highlight := fun hh => Option.some.inj hh ▸ he }
  | addHighlight field options =>
    obtain rfl := Except.ok.inj hd
    exact h.addHighlight he.1 he.2
  | setTrackTotalHits track =>
    obtain rfl := Except.ok.inj hd
    exact { h with }
  | setMinScore score =>
    obtain rfl := Except.ok.inj hd
    exact { h with minScore := fun hs => Option.some.inj hs ▸ he }
  | setSearchAfter values =>
    obtain rfl := Except.ok.inj hd
    exact { h with searchAfter := fun hs => Option.some.inj hs ▸ he }
  | attach name spec =>
    obtain rfl := Except.ok.inj hd
    exact h.attach he.1 he.2
  | attachUnder parent name spec =>
    exact h.attachUnder? (apply_attachUnder_eq_ok_iff.1 hd)

end Edit.Sound

/-! ## Steps -/

/-- An aggregation that passes its checks has a name and is an object. -/
theorem AggregationCall.named_of_check {call : AggregationCall} {r : String × Value}
    (h : call.check = .ok r) : isBlank r.1 = false ∧ r.2.isObject = true := by
  have hattach {name : String} {spec : Value} (h : attach name spec = .ok r) :
      isBlank r.1 = false ∧ r.2.isObject = true := by
    obtain ⟨hns, rfl⟩ := attach_eq_ok_iff.1 h
    exact hns
  cases call with
  | general => exact hattach h
  | terms | dateHistogram | histogram | range | filters =>
    obtain ⟨_, -, h⟩ := Checked.bind_eq_ok_iff.1 h
    obtain ⟨_, -, h⟩ := Checked.bind_eq_ok_iff.1 h
    exact hattach h
  | nested =>
    obtain ⟨_, -, h⟩ := Checked.bind_eq_ok_iff.1 h
    exact hattach h
  | metric m name field =>
    rw [check_metric] at h
    obtain ⟨_, hn, h⟩ := Checked.bind_eq_ok_iff.1 h
    obtain ⟨_, hname, -⟩ := Checked.bind_eq_ok_iff.1 hn
    obtain rfl := Except.ok.inj h
    exact ⟨Argument.aggregationName_eq_ok_iff.1 hname, rfl⟩
  | percentiles name field percents =>
    obtain ⟨_, -, h⟩ := Checked.bind_eq_ok_iff.1 h
    rcases percents with _ | percents
    · exact hattach h
    · obtain ⟨_, -, h⟩ := Checked.bind_eq_ok_iff.1 h
      exact hattach h

/-- The integers that a step is given fit into sixty-four bits with a sign. -/
def Step.WordSized : Step → Prop
  | offset given | size given => -(maxWord : Int) - 1 ≤ given ∧ given ≤ maxWord
  | _ => True

/-- What a step brings into a document follows the rules. -/
theorem Step.sound_of_edit {config : Config} {s : Step} {e : Edit} (hw : s.WordSized)
    (h : s.edit config = .ok e) : e.Sound config := by
  cases asks_of_edit h with
  | offset hn =>
    obtain rfl := Argument.offset_eq_ok_iff.1 hn
    exact Int.ofNat_le.1 hw.2
  | size hn =>
    obtain ⟨rfl, hmax⟩ := Argument.size_eq_ok_iff.1 hn
    exact ⟨Int.ofNat_le.1 hw.2, hmax⟩
  | @sort field _ _ hfield | @sortWith field _ hfield =>
    exact ⟨field, rfl, Argument.fieldName_eq_ok_iff.1 hfield⟩
  | source hfields => exact Argument.stringList_eq_ok_iff.1 hfields
  | highlight hfields => exact .plainHighlight (Argument.stringList_eq_ok_iff.1 hfields)
  | highlightField hfield hobject =>
    exact ⟨Argument.fieldName_eq_ok_iff.1 hfield, require_eq_ok_iff.1 hobject⟩
  | minScore hfinite => exact Argument.finite_eq_ok_iff.1 hfinite
  | searchAfter hvalues => exact Argument.nonEmpty_eq_ok_iff.1 hvalues
  | aggregate hr => exact AggregationCall.named_of_check hr
  | _ => trivial

/-! ## Calls -/

/-- The integers that a call is given fit into sixty-four bits with a sign. -/
def Call.WordSized : Call → Prop
  | step s => s.WordSized
  | product _ | log _ | report _ | article _ => True

/-- The only page size that a preset asks for is zero. -/
theorem Call.wordSized_steps {call : Call} (h : call.WordSized) :
    AllSteps Step.WordSized call.steps := by
  intro steps hs s hm
  rcases call.ofPreset_steps steps hs s hm with rfl | hp
  · exact h
  · cases hp with
    | noHits => exact ⟨by decide, by decide⟩
    | _ => trivial

/-! ## Runs -/

namespace Builder

/-- **Documents of builders are sound.** After any calls, those included that are rejected, a
builder has the configuration that it was made with, and its document follows the rules. -/
theorem sound_run {config : Config} {calls : List Call} (hw : ∀ call ∈ calls, call.WordSized) :
    ((start config).run calls).config = config ∧
      ((start config).run calls).document.Sound config := by
  have hstep : ∀ call ∈ calls, ∀ steps, call.steps = .ok steps → ∀ s ∈ steps, ∀ d d',
      d.Sound config → s.apply config d = .ok d' → d'.Sound config := by
    intro call hc steps hs s hm d d' hd happly
    obtain ⟨e, he, happly⟩ := Step.apply_eq_ok_iff.1 happly
    have hsound := Step.sound_of_edit (Call.wordSized_steps (hw call hc) steps hs s hm) he
    exact hsound.apply hd happly
  exact (run_preserves (b := start config) hstep .fresh).symm

/-- A page that is too large is rejected, a child is attached to an aggregation, and a preset asks
for no hits. -/
theorem sound_run_examples :
    let calls : List Call :=
      [.step (.size 20), .step (.size 20000), .step (.sort "title" "asc"),
       .step (.highlightField "title" (.obj [])), .report (.groupBy "brands" "brand" 5),
       .step (.subAggregate "brands" "price" (.obj [])), .report .aggregationsOnly]
    ((start {}).run calls).config = {} ∧ ((start {}).run calls).document.Sound {} := by
  intro calls
  have hsize {n : Nat} (hn : n ≤ maxWord) : (Step.size n).WordSized := by
    constructor <;> omega
  refine sound_run fun call hc => ?_
  simp only [calls, List.mem_cons, List.not_mem_nil, or_false] at hc
  rcases hc with rfl | rfl | rfl | rfl | rfl | rfl | rfl
  · exact hsize (n := 20) (by decide)
  · exact hsize (n := 20000) (by decide)
  all_goals trivial

end Builder

end SearchRequest

import SearchRequest.Proofs.Asking
import SearchRequest.Proofs.Cleanup
import SearchRequest.Proofs.Deep
import SearchRequest.Proofs.Numbers
import SearchRequest.Proofs.Readoption
import SearchRequest.Proofs.Sound

/-!
# Documents that are read back

A document that is written and read again comes back with raw clauses and raw sort entries, which
are written as the ones before, and in all else as it was: `Document.reread` is this copy.

Not every document can be read back. Counts have their widths, a number that is not finite is
written as `null`, and a query with a key in two places loses a member. `Document.Readable` excludes
this, and nothing more is asked for (`Document.decode_toValue`). It holds of every document that was
read from JSON, and of the documents of builders, live and as they are sent.
-/

namespace SearchRequest

open Decode

/-! ## What is lost -/

/-- The sort entry as one given as JSON, written alike. -/
def SortSpec.asRaw (s : SortSpec) : SortSpec := .raw s.toValue

namespace Document

/-- The document with raw clauses and raw sort entries only, written alike. -/
def reread (d : Document) : Document := { d.asRaw with sort := d.sort.map (·.map SortSpec.asRaw) }

theorem toValue_reread (d : Document) : d.reread.toValue = d.toValue := by
  have hsort : d.reread.sort.map (fun specs => Value.arr (specs.map SortSpec.toValue)) =
      d.sort.map fun specs => .arr (specs.map SortSpec.toValue) := by
    rw [reread, Option.map_map]
    rcases d.sort with _ | specs
    · rfl
    · exact congrArg (fun vs => some (Value.arr vs)) List.map_map
  rw [← toValue_asRaw d, toValue, hsort]
  rfl

/-- The finalizer does not look at what is lost. -/
theorem finalized_reread (d : Document) : d.reread.finalized = d.finalized.reread := by
  have hquery : d.asRaw.finalized.query = d.finalized.asRaw.query := by
    rw [d.finalized_asRaw]
  have hsort : finalSort (d.sort.map (·.map SortSpec.asRaw)) =
      (finalSort d.sort).map (·.map SortSpec.asRaw) := by
    rcases d.sort with _ | _ | ⟨spec, rest⟩ <;> rfl
  have hd : d.reread.finalized =
      { d with query := d.asRaw.finalized.query,
               sort := finalSort (d.sort.map (·.map SortSpec.asRaw)) } := rfl
  rw [hd, hquery, hsort]
  rfl

theorem clauseCount_reread (d : Document) : d.reread.clauseCount = d.clauseCount :=
  d.clauseCount_asRaw

end Document

/-! ## Documents that can be read back -/

/-- The counts among the options have their width. -/
def HighlightOptions.Fits (o : HighlightOptions) : Prop :=
  (∀ n, o.fragmentSize = some n → n < bound32) ∧ ∀ n, o.numberOfFragments = some n → n < bound32

/-- What is written of the document can be read back. What is said of a part holds if it is set. -/
structure Document.Readable (d : Document) : Prop where
  offset {n : Nat} (h : d.offset = some n) : n < bound64
  size {n : Nat} (h : d.size = some n) : n < bound64
  query {q : QueryRoot Clause} (h : d.query = some q) : q.KeysApart
  highlight {hl : Highlight} (h : d.highlight = some hl) : hl.options.Fits
  minScore {x : Double} (h : d.minScore = some x) : x.isFinite = true

/-- A document that can be read back can be so as it is sent. -/
theorem Document.Readable.finalized {d : Document} (h : d.Readable) : d.finalized.Readable :=
  { offset := h.offset
    size := h.size
    query := fun hq => by
      obtain ⟨q, hq', rfl⟩ := Option.map_eq_some_iff.1 hq
      exact (h.query hq').finalized
    highlight := h.highlight
    minScore := h.minScore }

theorem SourceFilter.decode_toValue (filter : SourceFilter) :
    decode? filter.toValue = some filter := by
  cases filter with
  | enabled all => rfl
  | fields names => exact congrArg (Option.map fields) (strings?_strings names)

/-- The fields that a highlight is written as. -/
def Highlight.written (h : Highlight) : List (String × Option Value) :=
  ("fields", some (.obj h.fields)) :: h.options.fields

/-- A highlight is read as it was written. -/
theorem Highlight.decode_toValue {h : Highlight} (hf : h.options.Fits) :
    decode? h.toValue = some h := by
  have hn : (h.written.map Prod.fst).Nodup := by
    change ["fields", "pre_tags", "post_tags", "fragment_size", "number_of_fragments"].Nodup
    decide
  have hstrings (o : Option (List String)) : ReadsBack strings? (o.map .strings) o :=
    .same fun items _ => ⟨nofun, strings?_strings items⟩
  have hcount {o : Option Nat} (ho : ∀ n, o = some n → n < bound32) :
      ReadsBack (natBelow? bound32) (o.map .nat) o :=
    .same fun n hs => ⟨nofun, natBelow?_nat (ho n hs)⟩
  refine decode_eq_some_iff.2 ⟨Value.present h.written, rfl, rfl, ?_⟩
  exact
    { preTags := (hstrings _).optionalField hn (by simp [written, HighlightOptions.fields])
      postTags := (hstrings _).optionalField hn (by simp [written, HighlightOptions.fields])
      fragmentSize := (hcount hf.1).optionalField hn (by simp [written, HighlightOptions.fields])
      numberOfFragments :=
        (hcount hf.2).optionalField hn (by simp [written, HighlightOptions.fields]) }

namespace Document

/-- **Reading back a written document** gives the document with raw clauses and sort entries. -/
theorem decode_toValue {d : Document} (h : d.Readable) : decode? d.toValue = some d.reread := by
  have hn := d.nodup_written
  have hoffset : ReadsBack (natBelow? bound64) (d.offset.map .nat) d.offset :=
    .same fun n hd => ⟨nofun, natBelow?_nat (h.offset hd)⟩
  have hsize : ReadsBack (natBelow? bound64) (d.size.map .nat) d.size :=
    .same fun n hd => ⟨nofun, natBelow?_nat (h.size hd)⟩
  have hquery : ReadsBack QueryRoot.decode? (d.query.map QueryRoot.toValue) d.reread.query :=
    .map fun q hd => ⟨nofun, QueryRoot.decode_eq_some_iff.2 (QueryRoot.adopt_toValue (h.query hd))⟩
  have hsort : ReadsBack (fun v => (list? v).map (·.map SortSpec.raw))
      (d.sort.map fun specs => .arr (specs.map SortSpec.toValue)) d.reread.sort :=
    .map fun specs _ => ⟨nofun, congrArg some List.map_map⟩
  have hsource : ReadsBack SourceFilter.decode? (d.source.map SourceFilter.toValue) d.source :=
    .same fun filter _ => ⟨by cases filter <;> nofun, filter.decode_toValue⟩
  have haggs : ReadsBack Value.object? (d.aggregations.map .obj) d.aggregations :=
    .same fun aggs _ => ⟨nofun, rfl⟩
  have hhighlight : ReadsBack Highlight.decode? (d.highlight.map Highlight.toValue) d.highlight :=
    .same fun hl hd => ⟨nofun, Highlight.decode_toValue (h.highlight hd)⟩
  have htrack : ReadsBack boolean? (d.trackTotalHits.map .bool) d.trackTotalHits :=
    .same fun track _ => ⟨nofun, rfl⟩
  have hscore : ReadsBack double? (d.minScore.map .ofDouble) d.minScore :=
    .same fun x hd => by
      rw [Value.ofDouble, if_pos (h.minScore hd)]
      exact ⟨nofun, rfl⟩
  have hafter : ReadsBack list? (d.searchAfter.map .arr) d.searchAfter :=
    .same fun values _ => ⟨nofun, rfl⟩
  refine decode_eq_some_iff.2 ⟨Value.present d.written, rfl, ?_⟩
  exact
    { offset := hoffset.optionalField hn (by simp [written])
      size := hsize.optionalField hn (by simp [written])
      query := hquery.optionalField hn (by simp [written])
      sort := hsort.optionalField hn (by simp [written])
      source := hsource.optionalField hn (by simp [written])
      aggregations := haggs.optionalField hn (by simp [written])
      highlight := hhighlight.optionalField hn (by simp [written])
      trackTotalHits := htrack.optionalField hn (by simp [written])
      minScore := hscore.optionalField hn (by simp [written])
      searchAfter := hafter.optionalField hn (by simp [written]) }

end Document

/-! ## Documents that were read -/

/-- An adopted query holds raw clauses only. -/
theorem QueryRoot.asRaw_of_adopt {v : Value} {q : QueryRoot Clause} (h : adopt .raw v = .ok q) :
    q.map Clause.asRaw = q := by
  obtain ⟨members, rfl, ⟨-, rfl⟩ | ⟨body, b, -, ha, rfl⟩⟩ := adopt_eq_ok_iff.1 h
  · rfl
  · have hb : b.map Clause.asRaw = b := BoolQuery.map_eq_self (.of_adopt Clause.asRaw_raw ha)
    rw [map, Option.map_some, hb]

/-- The counts in a decoded highlight have their width. -/
theorem Highlight.fits_of_decode {v : Value} {h : Highlight} (hd : decode? v = some h) :
    h.options.Fits := by
  obtain ⟨fields, -, -, hread⟩ := decode_eq_some_iff.1 hd
  constructor
  · intro n hn
    obtain ⟨w, -, hw⟩ := optionalField_eq_some hread.fragmentSize hn
    exact lt_of_natBelow? hw
  · intro n hn
    obtain ⟨w, -, hw⟩ := optionalField_eq_some hread.numberOfFragments hn
    exact lt_of_natBelow? hw

/-- A floating number that is read is finite, whether it was written as one or as an integer. -/
theorem Double.isFinite_of_read {v : Value} {x : Double} (hv : v.numbersFit = true)
    (h : double? v = some x) : x.isFinite = true := by
  cases v with
  | int n =>
    obtain rfl := Option.some.inj h
    exact isFinite_ofInt hv
  | float y =>
    obtain rfl := Option.some.inj h
    exact hv
  | _ => cases h

namespace Document

variable {v : Value} {d : Document}

/-- Nothing is lost of a document that was read. -/
theorem reread_of_decode (h : decode? v = some d) : d.reread = d := by
  obtain ⟨fields, -, hread⟩ := decode_eq_some_iff.1 h
  have hquery : d.query.map (·.map Clause.asRaw) = d.query := by
    rcases hq : d.query with _ | q
    · rfl
    · obtain ⟨w, -, hw⟩ := optionalField_eq_some hread.query hq
      exact congrArg some (QueryRoot.asRaw_of_adopt (QueryRoot.decode_eq_some_iff.1 hw))
  have hsort : d.sort.map (·.map SortSpec.asRaw) = d.sort := by
    rcases hs : d.sort with _ | specs
    · rfl
    · obtain ⟨w, -, hw⟩ := optionalField_eq_some hread.sort hs
      obtain ⟨items, -, rfl⟩ := Option.map_eq_some_iff.1 hw
      exact congrArg some List.map_map
  rw [reread, asRaw, hquery, hsort]

/-- A document that was read can be read back. -/
theorem readable_of_decode (hv : v.wellFormed = true) (hn : v.numbersFit = true)
    (h : decode? v = some d) : d.Readable := by
  obtain ⟨fields, hfields, hread⟩ := decode_eq_some_iff.1 h
  constructor
  case offset =>
    intro n hd
    obtain ⟨w, -, hw⟩ := optionalField_eq_some hread.offset hd
    exact lt_of_natBelow? hw
  case size =>
    intro n hd
    obtain ⟨w, -, hw⟩ := optionalField_eq_some hread.size hd
    exact lt_of_natBelow? hw
  case query => exact fun hd => keysApart_of_decode hv h hd
  case highlight =>
    intro hl hd
    obtain ⟨w, -, hw⟩ := optionalField_eq_some hread.highlight hd
    exact Highlight.fits_of_decode hw
  case minScore =>
    intro x hd
    obtain ⟨w, hf, hw⟩ := optionalField_eq_some hread.minScore hd
    exact Double.isFinite_of_read (numbersFit_of_record hn hfields hf) hw

end Document

/-! ## Documents of builders -/

/-- The counts among the options of a highlight that the step asks for have their width. -/
def Step.OptionsFit : Step → Prop
  | highlight _ options => options.Fits
  | _ => True

/-- The counts among the options of a highlight that the call asks for have their width. -/
def Call.OptionsFit : Call → Prop
  | step s => s.OptionsFit
  | product _ | log _ | report _ | article _ => True

/-- The counts in the highlight, if there is one, have their width. -/
def Document.OptionsFit (d : Document) : Prop := ∀ hl, d.highlight = some hl → hl.options.Fits

/-- The options with which a preset highlights are small. -/
theorem Call.optionsFit_steps {call : Call} (h : call.OptionsFit) :
    AllSteps Step.OptionsFit call.steps := by
  intro steps hs s hm
  rcases call.ofPreset_steps steps hs s hm with rfl | hp
  · exact h
  · cases hp with
    | marks =>
      constructor
      · rintro _ ⟨⟩
        decide
      · rintro _ ⟨⟩
        decide
    | _ => trivial

/-- The options come from a highlight that was asked for, or are none. -/
theorem Step.optionsFit_apply {config : Config} {s : Step} {d d' : Document} (hs : s.OptionsFit)
    (hd : d.OptionsFit) (h : s.apply config d = .ok d') : d'.OptionsFit := by
  obtain ⟨e, he, happly⟩ := apply_eq_ok_iff.1 h
  cases asks_of_edit he with
  | highlight =>
    obtain rfl := Except.ok.inj happly
    rintro _ ⟨⟩
    exact hs
  | highlightField =>
    obtain rfl := Except.ok.inj happly
    rintro _ ⟨⟩
    change (d.highlight.getD {}).options.Fits
    rcases hhl : d.highlight with _ | hl
    · exact ⟨nofun, nofun⟩
    · exact hd hl hhl
  | reset =>
    obtain rfl := Except.ok.inj happly
    exact nofun
  | subAggregate =>
    obtain ⟨p, -, rfl⟩ := Option.map_eq_some_iff.1 (Edit.apply_attachUnder_eq_ok_iff.1 happly)
    exact hd
  | _ =>
    obtain rfl := Except.ok.inj happly
    exact hd

/-- The document of a builder can be read back. -/
theorem Builder.readable_run {config : Config} {calls : List Call}
    (hw : ∀ call ∈ calls, call.WordSized) (ho : ∀ call ∈ calls, call.OptionsFit)
    (ha : ∀ call ∈ calls, call.Adopts fun v => v.wellFormed = true) :
    ((start config).run calls).document.Readable := by
  obtain ⟨-, hsound⟩ := sound_run hw
  have hfit : ((start config).run calls).document.OptionsFit := by
    refine (run_preserves ?_ nofun).1
    intro call hc steps hs s hm d d' hd happly
    exact Step.optionsFit_apply (Call.optionsFit_steps (ho call hc) steps hs s hm) hd happly
  obtain ⟨q, hq, hr⟩ := queryReached_run ha
  have hword : maxWord < bound64 := by decide
  exact
    { offset := fun hd => Nat.lt_of_le_of_lt (hsound.offset hd) hword
      size := fun hd => Nat.lt_of_le_of_lt (hsound.size hd).1 hword
      query := fun hd => by
        obtain rfl := Option.some.inj (hq.symm.trans hd)
        exact hr.keysApart
      highlight := fun hd => hfit _ hd
      minScore := hsound.minScore }

/-! ## The round trip -/

namespace Document

/-- **Documents are read back.** A document that was read from JSON, written again, is read as it
was; the JSON is as all that comes from text is (`Value.wellFormed_of_parse`,
`Value.numbersFit_of_parse`). A document of a builder, live or as it is sent, is read with raw
clauses and sort entries in the place of its own; what is read is written alike, is sent alike, and
has as many clauses. -/
theorem read_back :
    (∀ v d, v.wellFormed = true → v.numbersFit = true → decode? v = some d →
      decode? d.toValue = some d) ∧
    ∀ config calls, (∀ call ∈ calls, Call.WordSized call) → (∀ call ∈ calls, call.OptionsFit) →
      (∀ call ∈ calls, call.Adopts fun v => v.wellFormed = true) →
      let live := ((Builder.start config).run calls).document
      ∀ d ∈ [live, live.finalized], decode? d.toValue = some d.reread ∧
        d.reread.toValue = d.toValue ∧ d.reread.finalized.toValue = d.finalized.toValue ∧
        d.reread.clauseCount = d.clauseCount := by
  constructor
  · intro v d hv hn h
    rw [decode_toValue (readable_of_decode hv hn h), reread_of_decode h]
  · intro config calls hw ho ha live d hd
    have hlive : live.Readable := Builder.readable_run hw ho ha
    have hreadable : d.Readable := by
      rcases List.mem_cons.1 hd with rfl | hd
      · exact hlive
      · obtain rfl := List.mem_singleton.1 hd
        exact hlive.finalized
    refine ⟨decode_toValue hreadable, d.toValue_reread, ?_, d.clauseCount_reread⟩
    rw [finalized_reread, toValue_reread]

/-- A clause that stands alone in its section and a score written as an integer are read, and a
builder sorts, highlights and adopts a query with a value that waits. -/
theorem read_back_examples :
    let v : Value := .obj
      [("query", .obj [("bool", .obj [("must", .obj [("ids", .obj [])]), ("filter", .null)])]),
       ("min_score", .int 1), ("sort", .arr [.str "price"])]
    let adopted : Call := .step (.setQuery (.obj [("bool", .obj [("must", .str "later")])]))
    let sorted : Call := .step (.sortWith "price" { order := .asc, mode := some "min" })
    let marked : Call := .step (.highlight ["title"] { fragmentSize := some 150 })
    let sized : Call := .step (.size 20)
    let live := ((Builder.start {}).run [adopted, sorted, marked, sized]).document
    (v.wellFormed = true ∧ v.numbersFit = true ∧
      ∃ d, decode? v = some d ∧ decode? d.toValue = some d) ∧
    ∀ d ∈ [live, live.finalized], decode? d.toValue = some d.reread ∧
      d.reread.toValue = d.toValue ∧ d.reread.finalized.toValue = d.finalized.toValue ∧
      d.reread.clauseCount = d.clauseCount := by
  intro v adopted sorted marked sized live
  refine ⟨⟨rfl, rfl, _, rfl, read_back.1 v _ rfl rfl rfl⟩, ?_⟩
  have hcalls {P : Call → Prop} (ha : P adopted) (hs : P sorted) (hm : P marked) (hz : P sized) :
      ∀ call ∈ [adopted, sorted, marked, sized], P call := by
    simp [ha, hs, hm, hz]
  have hmarked : marked.OptionsFit := by
    refine ⟨?_, nofun⟩
    rintro _ ⟨⟩
    decide
  exact read_back.2 {} _ (hcalls trivial trivial trivial ⟨by decide, by decide⟩)
    (hcalls trivial trivial hmarked trivial) (hcalls rfl trivial trivial trivial)

end Document

end SearchRequest

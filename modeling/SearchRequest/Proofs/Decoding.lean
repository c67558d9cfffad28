import SearchRequest.Decode
import SearchRequest.Proofs.Lookup
import SearchRequest.Proofs.Numbers

/-!
# Fields that are read back

A record is read field by field, and what is read of one field does not depend on the others. This
file looks at such a reading from both sides:

* `Document.ReadFrom` — the document is what is read of the fields, part by part. A JSON value is
  decoded to a document exactly when this holds of its fields (`Document.decode_eq_some_iff`).
* `Decode.ReadsBack` — what is written of a part can be read, and gives this part again. Every field
  of a written record is then read as if it stood alone (`Decode.ReadsBack.optionalField`).
-/

namespace SearchRequest

open Decode

namespace Decode

/-! ## Fields that were read -/

/-- A field that is read is there, and can be read. -/
theorem optionalField_eq_some {α : Type} {fields : Object} {key : String}
    {read : Value → Option α} {a? : Option α} {a : α} (h : optionalField fields key read = some a?)
    (ha : a? = some a) : ∃ v, fields.find? key = some v ∧ read v = some a := by
  rw [optionalField, ha] at h
  split at h
  · cases h
  · cases h
  · next v _ hf =>
    obtain ⟨a', hr, ha⟩ := Option.map_eq_some_iff.1 h
    obtain rfl := Option.some.inj ha
    exact ⟨v, hf, hr⟩

/-- A property that is inherited by the values in a value is inherited by the fields of a record. -/
theorem field_of_record {P : Value → Prop} (hobj : ∀ {members : Object}, P (.obj members) →
      ∀ m ∈ members, P m.2) (harr : ∀ {items : List Value}, P (.arr items) → ∀ v ∈ items, P v)
    {keys : List String} {v w : Value} {fields : Object} {key : String} (hv : P v)
    (h : record? keys v = some fields) (hf : fields.find? key = some w) : P w := by
  cases v with
  | obj members =>
    obtain rfl := Option.some.inj h
    exact hobj hv _ (Object.mem_of_find? hf)
  | arr items =>
    rw [record?] at h
    by_cases hl : items.length ≤ keys.length
    · rw [if_pos hl] at h
      obtain rfl := Option.some.inj h
      exact harr hv w (List.of_mem_zip (Object.mem_of_find? hf)).2
    · rw [if_neg hl] at h
      cases h
  | _ => cases h

/-- The fields of a well-formed record are well formed. -/
theorem wellFormed_of_record {keys : List String} {v w : Value} {fields : Object} {key : String}
    (hv : v.wellFormed = true) (h : record? keys v = some fields)
    (hf : fields.find? key = some w) : w.wellFormed = true :=
  field_of_record (P := fun v => v.wellFormed = true) (fun hw => (Value.wellFormed_obj.1 hw).2)
    Value.wellFormed_arr.1 hv h hf

/-- The numbers in the fields of a record fit if those in the record do. -/
theorem numbersFit_of_record {keys : List String} {v w : Value} {fields : Object} {key : String}
    (hv : v.numbersFit = true) (h : record? keys v = some fields)
    (hf : fields.find? key = some w) : w.numbersFit = true :=
  field_of_record (P := fun v => v.numbersFit = true) Value.numbersFit_obj.1
    Value.numbersFit_arr.1 hv h hf

/-! ## Fields that were written -/

/-- What is written of an optional part is read as the given part. A part that is absent is not
written, and none is written as `null`. -/
inductive ReadsBack {β : Type} (read : Value → Option β) : Option Value → Option β → Prop where
  | absent : ReadsBack read none none
  | present {v : Value} {b : β} (hv : v ≠ .null) (h : read v = some b) :
    ReadsBack read (some v) (some b)

namespace ReadsBack

variable {α β : Type} {read : Value → Option β}

theorem map {write : α → Value} {again : α → β} {a? : Option α}
    (h : ∀ a, a? = some a → write a ≠ .null ∧ read (write a) = some (again a)) :
    ReadsBack read (a?.map write) (a?.map again) := by
  rcases a? with _ | a
  · exact .absent
  · exact .present (h a rfl).1 (h a rfl).2

/-- A part that is read as it was. -/
theorem same {write : β → Value} {b? : Option β}
    (h : ∀ b, b? = some b → write b ≠ .null ∧ read (write b) = some b) :
    ReadsBack read (b?.map write) b? := by
  rcases b? with _ | b
  · exact .absent
  · exact .present (h b rfl).1 (h b rfl).2

/-- **A written field is read back**, if the keys of the record are distinct. -/
theorem optionalField {v? : Option Value} {b? : Option β} (h : ReadsBack read v? b?)
    {fields : List (String × Option Value)} (hn : (fields.map Prod.fst).Nodup) {key : String}
    (hm : (key, v?) ∈ fields) :
    Decode.optionalField (Value.present fields) key read = some b? := by
  rw [Decode.optionalField, Value.find?_present hn hm]
  cases h with
  | absent => rfl
  | present hv h =>
    split
    · next he => cases he
    · next he => exact absurd (Option.some.inj he) hv
    · next w _ he =>
      obtain rfl := Option.some.inj he
      rw [h]
      rfl

end ReadsBack

theorem natBelow?_nat {bound n : Nat} (h : n < bound) : natBelow? bound (.nat n) = some n :=
  if_pos h

theorem lt_of_natBelow? {bound n : Nat} {v : Value} (h : natBelow? bound v = some n) :
    n < bound := by
  unfold natBelow? at h
  split at h
  · split at h
    · next hlt =>
      obtain rfl := Option.some.inj h
      exact hlt
    · cases h
  · cases h

theorem strings?_strings (items : List String) : strings? (.strings items) = some items := by
  have hmap : (items.map Value.str).mapM string? = some items := by
    induction items with
    | nil => rfl
    | cons s rest ih =>
      rw [List.map_cons, List.mapM_cons, ih]
      rfl
  exact hmap

end Decode

/-! ## Queries -/

/-- A query is decoded by adopting it. -/
theorem QueryRoot.decode_eq_some_iff {v : Value} {q : QueryRoot Clause} :
    decode? v = some q ↔ adopt .raw v = .ok q := by
  rw [decode?]
  rcases adopt Clause.raw v with r | q'
  · exact ⟨nofun, nofun⟩
  · exact ⟨fun h => congrArg Except.ok (Option.some.inj h),
      fun h => congrArg some (Except.ok.inj h)⟩

/-! ## Highlights -/

/-- The options are what is read of the fields. -/
structure HighlightOptions.ReadFrom (fields : Object) (o : HighlightOptions) : Prop where
  preTags : optionalField fields "pre_tags" strings? = some o.preTags
  postTags : optionalField fields "post_tags" strings? = some o.postTags
  fragmentSize : optionalField fields "fragment_size" (natBelow? bound32) = some o.fragmentSize
  numberOfFragments :
    optionalField fields "number_of_fragments" (natBelow? bound32) = some o.numberOfFragments

/-- Decoding a highlight is reading its fields, with those of the options among them. -/
theorem Highlight.decode_eq_some_iff {v : Value} {h : Highlight} :
    decode? v = some h ↔ ∃ fields, v.object? = some fields ∧
      requiredField fields "fields" Value.object? = some h.fields ∧ h.options.ReadFrom fields := by
  simp only [decode?, HighlightOptions.ofFields?, Option.bind_eq_bind, Option.bind_eq_some_iff]
  constructor
  · rintro ⟨fields, hfields, _, h₁, _, ⟨_, h₂, _, h₃, _, h₄, _, h₅, ho⟩, h⟩
    obtain rfl := Option.some.inj ho
    obtain rfl := Option.some.inj h
    exact ⟨fields, hfields, h₁, ⟨h₂, h₃, h₄, h₅⟩⟩
  · rintro ⟨fields, hfields, h₁, h⟩
    exact ⟨fields, hfields, _, h₁, _,
      ⟨_, h.preTags, _, h.postTags, _, h.fragmentSize, _, h.numberOfFragments, rfl⟩, rfl⟩

/-! ## Documents -/

namespace Document

/-- The document is what is read of the fields. -/
structure ReadFrom (fields : Object) (d : Document) : Prop where
  offset : optionalField fields "from" (natBelow? bound64) = some d.offset
  size : optionalField fields "size" (natBelow? bound64) = some d.size
  query : optionalField fields "query" QueryRoot.decode? = some d.query
  sort : optionalField fields "sort" (fun v => (list? v).map (·.map SortSpec.raw)) = some d.sort
  source : optionalField fields "_source" SourceFilter.decode? = some d.source
  aggregations : optionalField fields "aggregations" Value.object? = some d.aggregations
  highlight : optionalField fields "highlight" Highlight.decode? = some d.highlight
  trackTotalHits : optionalField fields "track_total_hits" boolean? = some d.trackTotalHits
  minScore : optionalField fields "min_score" double? = some d.minScore
  searchAfter : optionalField fields "search_after" list? = some d.searchAfter

/-- **Decoding a document** is reading its fields. -/
theorem decode_eq_some_iff {v : Value} {d : Document} :
    decode? v = some d ↔ ∃ fields, record? keys v = some fields ∧ d.ReadFrom fields := by
  simp only [decode?, Option.bind_eq_bind, Option.bind_eq_some_iff]
  constructor
  · rintro ⟨fields, hfields, _, h₁, _, h₂, _, h₃, _, h₄, _, h₅, _, h₆, _, h₇, _, h₈, _, h₉, _, h₁₀,
      h⟩
    obtain rfl := Option.some.inj h
    exact ⟨fields, hfields, ⟨h₁, h₂, h₃, h₄, h₅, h₆, h₇, h₈, h₉, h₁₀⟩⟩
  · rintro ⟨fields, hfields, h⟩
    exact ⟨fields, hfields, _, h.offset, _, h.size, _, h.query, _, h.sort, _, h.source,
      _, h.aggregations, _, h.highlight, _, h.trackTotalHits, _, h.minScore, _, h.searchAfter, rfl⟩

end Document

end SearchRequest

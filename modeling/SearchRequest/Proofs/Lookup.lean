import SearchRequest.Document.Basic
import SearchRequest.Proofs.Mapping

/-!
# Looking into written documents

`Value.at?` follows a path of keys into a JSON value. This file says where the parts of a document
are found once it is written: `Document.at?_query` goes to its query, `QueryRoot.at?_bool` on to the
bool query, and `BoolQuery.at?_section` to a section.

These laws ask for no invariant. A section that is installed is written last, so it is found under
its key whatever else may have been there; without it, the value that waits under the key is found.
-/

namespace SearchRequest

/-! ## Paths -/

/-- The value at the end of a path of keys, if there is one. -/
def Value.at? : Value → List String → Option Value
  | v, [] => some v
  | v, key :: rest => (v.object?.bind (·.find? key)).bind (at? · rest)

namespace Value

@[simp] theorem at?_obj (members : Object) (key : String) (rest : List String) :
    (obj members).at? (key :: rest) = (members.find? key).bind (·.at? rest) := rfl

/-- A path with at least one key only leads into an object. -/
theorem at?_cons_eq_some_iff {v w : Value} {key : String} {rest : List String} :
    v.at? (key :: rest) = some w ↔
      ∃ (members : Object) (u : Value), v = .obj members ∧ members.find? key = some u ∧
        u.at? rest = some w := by
  cases v with
  | obj members => simp [Option.bind_eq_some_iff]
  | _ => simp [at?, object?]

/-! ## Records -/

/-- The fields of a record that are present. -/
def present (fields : List (String × Option Value)) : Object :=
  fields.filterMap fun f => f.2.map (f.1, ·)

theorem record_eq (fields : List (String × Option Value)) : record fields = obj (present fields) :=
  rfl

theorem present_cons_none (key : String) (fields : List (String × Option Value)) :
    present ((key, none) :: fields) = present fields := rfl

theorem present_cons_some (key : String) (v : Value) (fields : List (String × Option Value)) :
    present ((key, some v) :: fields) = (key, v) :: present fields := rfl

/-- The keys of a record are those of its fields, the absent ones left out. -/
theorem keys_present_sublist (fields : List (String × Option Value)) :
    (present fields).keys.Sublist (fields.map Prod.fst) := by
  induction fields with
  | nil => exact .slnil
  | cons f rest ih =>
    obtain ⟨k, o⟩ := f
    rcases o with _ | v
    · exact ih.cons k
    · exact ih.cons_cons k

/-- A field of a record is found under its key, if the keys are distinct. -/
theorem find?_present {fields : List (String × Option Value)} (hn : (fields.map Prod.fst).Nodup)
    {key : String} {o : Option Value} (h : (key, o) ∈ fields) :
    (present fields).find? key = o := by
  induction fields with
  | nil => cases h
  | cons f rest ih =>
    obtain ⟨k, o'⟩ := f
    rw [List.map_cons, List.nodup_cons] at hn
    rcases List.mem_cons.1 h with hf | hr
    · -- the field stands first, and no later one has its key
      obtain ⟨rfl, rfl⟩ := Prod.mk.inj hf
      rcases o with _ | v
      · rw [present_cons_none, Object.find?_eq_none_iff]
        exact fun hk => hn.1 ((keys_present_sublist rest).subset hk)
      · rw [present_cons_some, Object.find?_cons, if_pos rfl]
    · rcases o' with _ | v
      · rw [present_cons_none]
        exact ih hn.2 hr
      · have hk : k ≠ key := by
          rintro rfl
          exact hn.1 (List.mem_map.2 ⟨_, hr, rfl⟩)
        rw [present_cons_some, Object.find?_cons, if_neg hk]
        exact ih hn.2 hr

end Value

/-! ## Sections of a written bool query -/

namespace BoolQuery

/-- What is found under a section's key once some sections have been written. -/
theorem find?_foldl_renderSection (b : BoolQuery Value) (sections : List Section) (base : Object)
    (s : Section) :
    (sections.foldl b.renderSection base).find? s.text =
      if s ∈ sections then ((b.get s).map .arr).or (base.find? s.text)
      else base.find? s.text := by
  induction sections generalizing base with
  | nil => rfl
  | cons t rest ih =>
    rw [List.foldl_cons, ih]
    have hself : (b.renderSection base t).find? t.text =
        ((b.get t).map .arr).or (base.find? t.text) := by
      rw [renderSection]
      rcases b.get t with _ | cs
      · rfl
      · exact Object.find?_insert_self _ _ _
    have hother (h : s ≠ t) : (b.renderSection base t).find? s.text = base.find? s.text := by
      rw [renderSection]
      rcases b.get t with _ | cs
      · rfl
      · exact Object.find?_insert_of_ne _ _ (Section.text_ne h)
    by_cases h : s = t
    · -- writing the section once more among the rest would change nothing
      subst h
      rw [hself, ← Option.or_assoc, Option.or_self, ite_self, if_pos List.mem_cons_self]
    · rw [hother h]
      simp only [List.mem_cons, h, false_or]

/-- An installed section is found under its key, else the value that waits there. -/
theorem find?_members (b : BoolQuery Value) (s : Section) :
    b.members.find? s.text = ((b.get s).map .arr).or (b.extra.find? s.text) := by
  have hs := find?_foldl_renderSection b Section.all b.extra s
  rw [if_pos s.mem_all] at hs
  rw [members]
  rcases b.minimumShouldMatch with _ | v
  · exact hs
  · have hne : s.text ≠ minimumKey := by
      cases s <;> decide
    rw [← hs]
    exact Object.find?_insert_of_ne _ v hne

/-- The same for a bool query of clauses. -/
theorem at?_section (b : BoolQuery Clause) (s : Section) :
    b.toValue.at? [s.text] =
      ((b.get s).map fun cs => .arr (cs.map Clause.toValue)).or (b.extra.find? s.text) := by
  rw [toValue, render, Value.at?_obj, find?_members, get_map, Option.map_map, extra_map]
  exact Option.bind_fun_some _

end BoolQuery

/-! ## Queries and documents -/

/-- The bool query is found under its key. -/
theorem QueryRoot.at?_bool {q : QueryRoot Clause} {b : BoolQuery Clause} (h : q.bool = some b)
    (path : List String) : q.toValue.at? ("bool" :: path) = b.toValue.at? path := by
  obtain ⟨bool, named⟩ := q
  obtain rfl : bool = some b := h
  have hf : (Object.insert named boolKey b.toValue).find? "bool" = some b.toValue :=
    Object.find?_insert_self named boolKey _
  exact congrArg (Option.bind · (·.at? path)) hf

namespace Document

/-- The fields that a document is written as. -/
def written (d : Document) : List (String × Option Value) :=
  [("from", d.offset.map .nat), ("size", d.size.map .nat),
   ("query", d.query.map QueryRoot.toValue),
   ("sort", d.sort.map fun specs => .arr (specs.map SortSpec.toValue)),
   ("_source", d.source.map SourceFilter.toValue), ("aggregations", d.aggregations.map .obj),
   ("highlight", d.highlight.map Highlight.toValue),
   ("track_total_hits", d.trackTotalHits.map .bool), ("min_score", d.minScore.map .ofDouble),
   ("search_after", d.searchAfter.map .arr)]

theorem nodup_written (d : Document) : (d.written.map Prod.fst).Nodup := by
  change ["from", "size", "query", "sort", "_source", "aggregations", "highlight",
    "track_total_hits", "min_score", "search_after"].Nodup
  decide

/-- A part of a document is found under its key. -/
theorem at?_field {d : Document} {key : String} {v : Value} (h : (key, some v) ∈ d.written)
    (path : List String) : d.toValue.at? (key :: path) = v.at? path := by
  have hfind : (Value.present d.written).find? key = some v :=
    Value.find?_present d.nodup_written h
  exact congrArg (Option.bind · (·.at? path)) hfind

/-- The query of a document is found under its key. -/
theorem at?_query {d : Document} {q : QueryRoot Clause} (h : d.query = some q)
    (path : List String) : d.toValue.at? ("query" :: path) = q.toValue.at? path :=
  at?_field (by simp [written, h]) path

/-- The query of a document as it is sent. -/
theorem query_finalized {d : Document} {q : QueryRoot Clause} (h : d.query = some q) :
    d.finalized.query = some q.finalized := by
  rw [finalized, h]
  rfl

end Document

end SearchRequest

import SearchRequest.Proofs.Decoding
import SearchRequest.Proofs.Written

/-!
# Cleaning up written documents

What is sent of a document can be described without looking at how documents are built, as a
clean-up of the JSON that the live document is written as:

* of the four sections, those are deleted that are empty lists;
* if nothing is left in the bool query, the whole query becomes the one that matches everything;
* a sort list is deleted if it is empty;
* nothing else changes.

`Value.cleanedDocument` is this clean-up. The finalizer works on the built document instead, where a
section is a part of its own. That both lead to the same JSON, down to the order of members, rests
on the keys that stay apart: were a section's key among the other parameters too, the clean-up would
delete a member that the finalizer does not know about.
-/

namespace SearchRequest

/-! ## The clean-up -/

/-- An empty list. -/
def Value.isEmptyList : Value → Bool
  | .arr [] => true
  | _ => false

namespace Object

/-- Delete the members under the given keys that are empty lists. -/
def dropEmptyLists (keys : List String) (members : Object) : Object :=
  members.filter fun m => !(keys.contains m.1 && m.2.isEmptyList)

/-- Change the value under a key. -/
def modify (members : Object) (key : String) (f : Value → Value) : Object :=
  members.map fun m => (m.1, if m.1 = key then f m.2 else m.2)

end Object

namespace Value

/-- The keys of the four sections. -/
def sectionKeys : List String := ["must", "filter", "should", "must_not"]

/-- The clean-up of a written query. -/
def cleanedQuery : Value → Value
  | .obj members =>
    match Object.find? members "bool" with
    | some (.obj body) =>
      let left := Object.dropEmptyLists sectionKeys body
      if left.isEmpty then .obj [("match_all", .obj [])]
      else .obj (Object.modify members "bool" fun _ => .obj left)
    | _ => .obj members
  | v => v

/-- The clean-up of a written document. -/
def cleanedDocument : Value → Value
  | .obj members =>
    .obj (Object.dropEmptyLists ["sort"] (Object.modify members "query" cleanedQuery))
  | v => v

end Value

/-! ## Members that the clean-up changes, and others -/

namespace Object

theorem dropEmptyLists_append (keys : List String) (a b : Object) :
    dropEmptyLists keys (a ++ b) = dropEmptyLists keys a ++ dropEmptyLists keys b :=
  List.filter_append a b

/-- Nothing is deleted where no value under the keys is an empty list. -/
theorem dropEmptyLists_eq_self {keys : List String} {members : Object}
    (h : ∀ m ∈ members, m.1 ∈ keys → m.2.isEmptyList = false) :
    dropEmptyLists keys members = members := by
  refine List.filter_eq_self.2 fun m hm => ?_
  by_cases hk : m.1 ∈ keys
  · rw [h m hm hk, Bool.and_false, Bool.not_false]
  · rw [List.contains_eq_mem, decide_eq_false hk, Bool.false_and, Bool.not_false]

theorem modify_append (a b : Object) (key : String) (f : Value → Value) :
    modify (a ++ b) key f = modify a key f ++ modify b key f :=
  List.map_append

/-- Nothing is changed where the key is absent. -/
theorem modify_of_not_mem {members : Object} {key : String} (f : Value → Value)
    (h : key ∉ members.keys) : modify members key f = members := by
  refine (List.map_congr_left fun m hm => ?_).trans (List.map_id members)
  have hk : m.1 ≠ key := fun hk => h (hk ▸ List.mem_map_of_mem hm)
  rw [if_neg hk]
  rfl

end Object

/-! ## Cleaned bool queries -/

namespace BoolQuery

/-- The keys of the sections, as they stand in the clean-up. -/
theorem mem_sectionKeys_iff {key : String} :
    key ∈ Value.sectionKeys ↔ ∃ s : Section, s.text = key := by
  have hall : Value.sectionKeys = Section.all.map Section.text := rfl
  rw [hall, List.mem_map]
  exact ⟨fun ⟨s, _, h⟩ => ⟨s, h⟩, fun ⟨s, h⟩ => ⟨s, s.mem_all, h⟩⟩

/-- A section is deleted exactly when the finalizer drops it. -/
theorem dropEmptyLists_sectionMembers (b : BoolQuery Value) :
    Object.dropEmptyLists Value.sectionKeys b.sectionMembers = b.prune.sectionMembers := by
  rw [Object.dropEmptyLists, sectionMembers, List.filter_filterMap, sectionMembers]
  refine List.filterMap_congr fun s _ => ?_
  have hk : Value.sectionKeys.contains s.text = true := by
    cases s <;> decide
  rw [sectionMember, sectionMember, get_prune]
  rcases b.get s with _ | _ | ⟨c, rest⟩
  · rfl
  · rw [Option.map_some, Option.filter_some, hk]
    rfl
  · rw [Option.map_some, Option.filter_some, hk]
    rfl

/-- **Cleaning a written bool query** drops the sections that the finalizer drops. -/
theorem dropEmptyLists_members {b : BoolQuery Value} (h : b.KeysApart) :
    Object.dropEmptyLists Value.sectionKeys b.members = b.prune.members := by
  -- what waits under the key of a section is no list, so that it is not deleted
  have hextra : Object.dropEmptyLists Value.sectionKeys b.extra = b.extra := by
    refine Object.dropEmptyLists_eq_self ?_
    rintro ⟨k, v⟩ hm hk
    obtain ⟨s, rfl⟩ := mem_sectionKeys_iff.1 hk
    have hv : v.isContainer = false := h.waiting (Object.find?_of_mem h.nodup hm)
    cases v with
    | arr items => cases hv
    | _ => rfl
  have hminimum : Object.dropEmptyLists Value.sectionKeys b.minimumMembers = b.minimumMembers := by
    refine Object.dropEmptyLists_eq_self fun m hm hk => ?_
    obtain ⟨v, -, rfl⟩ := Option.map_eq_some_iff.1 (Option.mem_toList.1 hm)
    exact absurd hk (by decide : minimumKey ∉ Value.sectionKeys)
  rw [members_eq h, members_eq h.prune, Object.dropEmptyLists_append, Object.dropEmptyLists_append,
    hextra, dropEmptyLists_sectionMembers, hminimum]
  rfl

/-- A bool query is written without any key exactly when it is empty. -/
theorem isEmpty_members {b : BoolQuery Value} (h : b.KeysApart) :
    b.members.isEmpty = b.isEmpty := by
  have hs : b.sectionMembers.isEmpty = Section.all.all fun s => (b.get s).isNone := by
    rw [Bool.eq_iff_iff, List.isEmpty_iff, sectionMembers, List.filterMap_eq_nil_iff,
      List.all_eq_true]
    refine forall₂_congr fun s _ => ?_
    rw [sectionMember, Option.map_eq_none_iff, Option.isNone_iff_eq_none]
  have hm : b.minimumMembers.isEmpty = b.minimumShouldMatch.isNone := by
    rw [minimumMembers]
    rcases b.minimumShouldMatch with _ | v <;> rfl
  have happend (a c : Object) : (a ++ c).isEmpty = (a.isEmpty && c.isEmpty) := by
    cases a <;> rfl
  rw [members_eq h, happend, happend, hs, hm, isEmpty, Bool.and_comm]

end BoolQuery

/-! ## Cleaned queries -/

namespace QueryRoot

/-- **Cleaning a written query** does what the finalizer does to the query. -/
theorem cleanedQuery_render {q : QueryRoot Value} (h : q.KeysApart) :
    q.render.cleanedQuery = q.finalized.render := by
  obtain ⟨bool, named⟩ := q
  rcases bool with _ | b
  · have hf : Object.find? named "bool" = none := Object.find?_eq_none_iff.2 h.named
    rw [render, members, Value.cleanedQuery, hf]
    rfl
  · have hb : b.KeysApart := h.bool rfl
    have hf : Object.find? (named.insert boolKey b.render) "bool" = some (.obj b.members) :=
      Object.find?_insert_self named boolKey _
    rw [render, members, Value.cleanedQuery, hf]
    simp only [BoolQuery.dropEmptyLists_members hb, BoolQuery.isEmpty_members hb.prune, finalized]
    by_cases he : b.prune.isEmpty = true
    · rw [if_pos he, if_pos he]
      rfl
    · -- the bool query stands last among the members, and nothing before it has its key
      have hn : boolKey ∉ Object.keys named := h.named
      have hmodify : (Object.modify named "bool" fun _ => .obj b.prune.members) = named :=
        Object.modify_of_not_mem _ hn
      rw [if_neg he, if_neg he, Object.insert_of_not_mem _ hn, Object.modify_append, hmodify,
        render, members]
      exact congrArg Value.obj (Object.insert_of_not_mem _ hn).symm

/-- The same for a query of clauses. -/
theorem cleanedQuery_toValue {q : QueryRoot Clause} (h : q.KeysApart) :
    q.toValue.cleanedQuery = q.finalized.toValue := by
  rw [toValue, cleanedQuery_render (h.map Clause.toValue), toValue, map_finalized]

end QueryRoot

/-! ## Cleaned documents -/

namespace Value

/-- What the clean-up makes of the value under a key of the document; nothing if it is deleted. -/
def cleanedField (key : String) (v : Value) : Option Value :=
  if key = "query" then some v.cleanedQuery
  else if ["sort"].contains key && v.isEmptyList then none else some v

theorem cleanedField_other {key : String} (hq : key ≠ "query") (hs : key ≠ "sort")
    (v? : Option Value) : v?.bind (cleanedField key) = v? := by
  rcases v? with _ | v
  · rfl
  · have hc : ["sort"].contains key = false := by
      rw [List.contains_eq_mem, decide_eq_false fun hm => hs (List.mem_singleton.1 hm)]
    rw [Option.bind_some, cleanedField, if_neg hq, hc, Bool.false_and]
    rfl

/-- The clean-up of a record goes field by field. -/
theorem cleanedDocument_record (fields : List (String × Option Value)) :
    (record fields).cleanedDocument =
      record (fields.map fun f => (f.1, f.2.bind (cleanedField f.1))) := by
  rw [record, cleanedDocument, record]
  refine congrArg Value.obj ?_
  rw [Object.dropEmptyLists, Object.modify, List.map_filterMap, List.filter_filterMap,
    List.filterMap_map]
  refine List.filterMap_congr ?_
  rintro ⟨key, _ | v⟩ -
  · rfl
  · simp only [Option.map_some, Option.filter_some, Function.comp_apply, Option.bind_some]
    by_cases hq : key = "query"
    · subst hq
      rfl
    · rw [if_neg hq, cleanedField, if_neg hq]
      rcases ["sort"].contains key && v.isEmptyList with _ | _ <;> rfl

end Value

namespace Document

/-- **Cleaning a written document** does what the finalizer does to the document, provided that the
keys of its query stay apart. -/
theorem cleanedDocument_toValue {d : Document} (h : ∀ q, d.query = some q → q.KeysApart) :
    d.toValue.cleanedDocument = d.finalized.toValue := by
  have hquery : (d.query.map QueryRoot.toValue).bind (Value.cleanedField "query") =
      d.finalized.query.map QueryRoot.toValue := by
    rw [finalized]
    rcases hq : d.query with _ | q
    · rfl
    · exact congrArg some (QueryRoot.cleanedQuery_toValue (h q hq))
  have hsort : (d.sort.map fun specs => Value.arr (specs.map SortSpec.toValue)).bind
      (Value.cleanedField "sort") =
        d.finalized.sort.map fun specs => .arr (specs.map SortSpec.toValue) := by
    rw [finalized]
    rcases d.sort with _ | _ | ⟨spec, rest⟩ <;> rfl
  rw [toValue, Value.cleanedDocument_record]
  simp only [List.map_cons, List.map_nil, hquery, hsort]
  simp (disch := decide) only [Value.cleanedField_other]
  rfl

/-- A document as it is sent is sent as it is. -/
theorem finalized_finalized (d : Document) : d.finalized.finalized = d.finalized := by
  have hquery : d.finalized.query.map QueryRoot.finalized = d.finalized.query := by
    rw [finalized]
    rcases d.query with _ | q
    · rfl
    · exact congrArg some q.finalized_finalized
  have hsort : finalSort d.finalized.sort = d.finalized.sort := by
    rw [finalized]
    rcases d.sort with _ | _ | ⟨spec, rest⟩ <;> rfl
  rw [finalized, hquery, hsort]

end Document

/-! ## Where documents come from -/

namespace Document

/-- The keys of a decoded query stay apart. -/
theorem keysApart_of_decode {v : Value} {d : Document} {q : QueryRoot Clause}
    (hv : v.wellFormed = true) (h : decode? v = some d) (hq : d.query = some q) : q.KeysApart := by
  obtain ⟨fields, hfields, hread⟩ := decode_eq_some_iff.1 h
  obtain ⟨w, hw, hr⟩ := Decode.optionalField_eq_some hread.query hq
  exact .of_adopt (Decode.wellFormed_of_record hv hfields hw) (QueryRoot.decode_eq_some_iff.1 hr)

/-- The documents that can be there: the live document of a builder after some calls, and a document
read back from JSON. The JSON is well formed in both cases, as all that comes from text is
(`Value.wellFormed_of_parse`). -/
inductive Arises : Document → Prop where
  | live {config : Config} {calls : List Call}
    (hw : ∀ call ∈ calls, call.Adopts fun v => v.wellFormed = true) :
    Arises ((Builder.start config).run calls).document
  | decoded {v : Value} {d : Document} (hv : v.wellFormed = true) (h : decode? v = some d) :
    Arises d

theorem Arises.keysApart {d : Document} (h : d.Arises) {q : QueryRoot Clause}
    (hq : d.query = some q) : q.KeysApart := by
  cases h with
  | live hw =>
    obtain ⟨q', hq', hr⟩ := Builder.queryReached_run hw
    obtain rfl := Option.some.inj (hq'.symm.trans hq)
    exact hr.keysApart
  | decoded hv h => exact keysApart_of_decode hv h hq

/-- **The finalizer is the clean-up.** What is written of a finalized document is the clean-up of
what is written of the document itself, and finalizing again changes nothing. -/
theorem Arises.toValue_finalized {d : Document} (h : d.Arises) :
    d.finalized.toValue = d.toValue.cleanedDocument ∧ d.finalized.finalized = d.finalized :=
  ⟨(cleanedDocument_toValue fun _ => h.keysApart).symm, d.finalized_finalized⟩

/-- A live document with an empty section and a sibling of the bool query, and one that was read
with an empty sort list. -/
theorem toValue_finalized_examples :
    let live := ((Builder.start {}).run
      [.step (.setQuery (.obj [("knn", .obj []), ("bool", .obj [("must", .arr [])])]))]).document
    let decoded : Document := { size := some 3, sort := some [] }
    (live.finalized.toValue = live.toValue.cleanedDocument ∧
      live.finalized.finalized = live.finalized) ∧
      decoded.finalized.toValue = decoded.toValue.cleanedDocument ∧
        decoded.finalized.finalized = decoded.finalized := by
  have hv : (Value.obj [("knn", .obj []), ("bool", .obj [("must", .arr [])])]).wellFormed = true :=
    rfl
  have hdecoded : Arises { size := some 3, sort := some [] } :=
    .decoded (v := .obj [("size", .int 3), ("sort", .arr [])]) rfl rfl
  refine ⟨Arises.toValue_finalized (.live fun call hc => ?_), hdecoded.toValue_finalized⟩
  obtain rfl := List.mem_singleton.1 hc
  exact hv

end Document

end SearchRequest

import SearchRequest.Proofs.KeysApart

/-!
# Written queries, and reading them again

With keys that stay apart (`BoolQuery.KeysApart`) nothing is overwritten when a query is written,
so that the written object is a plain row of members: the other parameters, the installed sections,
the bound (`BoolQuery.members_eq`).

Reading such a row member by member rebuilds the query, with every clause as a raw one. So writing
a query and adopting what was written is the identity but for the kinds of the clauses:
`QueryRoot.adopt_render`.
-/

namespace SearchRequest

namespace BoolQuery

variable {C : Type} {raw : Value → C}

/-! ## The row of members -/

/-- The member that a section is written as, if it is installed. -/
def sectionMember (b : BoolQuery Value) (s : Section) : Option (String × Value) :=
  (b.get s).map fun cs => (s.text, .arr cs)

/-- The members that the sections are written as. -/
def sectionMembers (b : BoolQuery Value) : Object := Section.all.filterMap b.sectionMember

/-- The member that the bound is written as, if there is one. -/
def minimumMembers (b : BoolQuery Value) : Object :=
  (b.minimumShouldMatch.map (minimumKey, ·)).toList

theorem foldl_renderSection (b : BoolQuery Value) (sections : List Section) (base : Object) :
    sections.foldl b.renderSection base =
      (sections.filterMap b.sectionMember).foldl (fun done m => done.insert m.1 m.2) base := by
  induction sections generalizing base with
  | nil => rfl
  | cons s rest ih =>
    rcases hg : b.get s with _ | cs
    · have hm : b.sectionMember s = none := by
        rw [sectionMember, hg, Option.map_none]
      rw [List.foldl_cons, List.filterMap_cons_none hm, renderSection, hg]
      exact ih base
    · have hm : b.sectionMember s = some (s.text, .arr cs) := by
        rw [sectionMember, hg, Option.map_some]
      rw [List.foldl_cons, List.filterMap_cons_some hm, renderSection, hg, List.foldl_cons]
      exact ih _

theorem keys_filterMap_sublist (b : BoolQuery Value) (sections : List Section) :
    (Object.keys (sections.filterMap b.sectionMember)).Sublist (sections.map Section.text) := by
  induction sections with
  | nil => exact .slnil
  | cons s rest ih =>
    rcases hg : b.get s with _ | cs
    · have hm : b.sectionMember s = none := by
        rw [sectionMember, hg, Option.map_none]
      rw [List.filterMap_cons_none hm]
      exact ih.cons s.text
    · have hm : b.sectionMember s = some (s.text, .arr cs) := by
        rw [sectionMember, hg, Option.map_some]
      rw [List.filterMap_cons_some hm]
      exact ih.cons_cons s.text

theorem nodup_keys_sectionMembers (b : BoolQuery Value) : b.sectionMembers.keys.Nodup :=
  (keys_filterMap_sublist b Section.all).nodup (by decide)

/-- A section among the members is installed. -/
theorem exists_of_mem_sectionMembers {b : BoolQuery Value} {m : String × Value}
    (h : m ∈ b.sectionMembers) : ∃ s cs, b.get s = some cs ∧ m = (s.text, .arr cs) := by
  obtain ⟨s, -, hs⟩ := List.mem_filterMap.1 h
  obtain ⟨cs, hg, rfl⟩ := Option.map_eq_some_iff.1 hs
  exact ⟨s, cs, hg, rfl⟩

theorem exists_of_mem_keys_sectionMembers {b : BoolQuery Value} {key : String}
    (h : key ∈ b.sectionMembers.keys) : ∃ s cs, b.get s = some cs ∧ s.text = key := by
  obtain ⟨m, hm, rfl⟩ := List.mem_map.1 h
  obtain ⟨s, cs, hg, rfl⟩ := exists_of_mem_sectionMembers hm
  exact ⟨s, cs, hg, rfl⟩

/-- **A written bool query, member by member.** -/
theorem members_eq {b : BoolQuery Value} (h : b.KeysApart) :
    b.members = b.extra ++ (b.sectionMembers ++ b.minimumMembers) := by
  have hs : Section.all.foldl b.renderSection b.extra = b.extra ++ b.sectionMembers := by
    rw [foldl_renderSection]
    refine Object.foldl_insert (nodup_keys_sectionMembers b) ?_
    intro k hk
    obtain ⟨s, cs, hg, rfl⟩ := exists_of_mem_keys_sectionMembers hk
    exact h.installed hg
  rw [members, hs, minimumMembers]
  rcases b.minimumShouldMatch with _ | v
  · rw [Option.map_none, Option.toList_none, List.append_nil]
  · rw [Option.map_some, Option.toList_some, ← List.append_assoc]
    refine Object.insert_of_not_mem v ?_
    rw [Object.keys_append, List.mem_append, not_or]
    refine ⟨h.minimum, fun hk => ?_⟩
    obtain ⟨s, -, -, he⟩ := exists_of_mem_keys_sectionMembers hk
    exact minimumKey_ne_text s he.symm

/-! ## Reading a row of members -/

theorem adoptMember_section (b : BoolQuery C) (s : Section) (items : List Value) :
    b.adoptMember raw s.text (.arr items) = b.set s (some (items.map raw)) := by
  unfold adoptMember
  rw [Section.ofText?_text]

theorem adoptMember_minimum (b : BoolQuery C) (v : Value) :
    b.adoptMember raw minimumKey v = { b with minimumShouldMatch := some v } := by
  have hn : Section.ofText? minimumKey = none := by decide
  unfold adoptMember
  rw [hn]
  exact if_pos rfl

/-- A member that is neither a section with clauses nor the bound is kept as it is. -/
theorem adoptMember_other (b : BoolQuery C) {key : String} {v : Value} (hm : key ≠ minimumKey)
    (hs : ∀ s : Section, s.text = key → v.isContainer = false) :
    b.adoptMember raw key v = { b with extra := b.extra.insert key v } := by
  unfold adoptMember
  rcases ho : Section.ofText? key with _ | s
  · exact if_neg hm
  · have hv := hs s (Section.text_of_ofText? ho)
    cases v with
    | arr items => cases hv
    | obj members => cases hv
    | _ => rfl

theorem foldl_adoptMember_extra {b : BoolQuery C} {members : Object}
    (hm : minimumKey ∉ members.keys)
    (hs : ∀ m ∈ members, ∀ s : Section, s.text = m.1 → m.2.isContainer = false) :
    members.foldl (fun b m => b.adoptMember raw m.1 m.2) b =
      { b with extra := members.foldl (fun done m => done.insert m.1 m.2) b.extra } := by
  induction members generalizing b with
  | nil => rfl
  | cons m rest ih =>
    obtain ⟨k, v⟩ := m
    rw [Object.keys_cons, List.mem_cons, not_or] at hm
    rw [List.foldl_cons, adoptMember_other b (Ne.symm hm.1) (hs _ List.mem_cons_self),
      ih hm.2 fun m hr => hs m (List.mem_cons_of_mem _ hr)]
    rfl

/-- Reading written sections sets those that are installed, and nothing else. -/
theorem foldl_adoptMember_sections (raw : Value → C) (b : BoolQuery Value)
    (sections : List Section) (start : BoolQuery C) :
    let read := (sections.filterMap b.sectionMember).foldl
      (fun b m => b.adoptMember raw m.1 m.2) start
    read.extra = start.extra ∧ read.minimumShouldMatch = start.minimumShouldMatch ∧
      ∀ t, read.get t =
        if t ∈ sections ∧ b.get t ≠ none then (b.get t).map (·.map raw) else start.get t := by
  induction sections generalizing start with
  | nil => exact ⟨rfl, rfl, fun t => (if_neg fun h => List.not_mem_nil h.1).symm⟩
  | cons s rest ih =>
    rcases hg : b.get s with _ | cs
    · have hm : b.sectionMember s = none := by
        rw [sectionMember, hg, Option.map_none]
      obtain ⟨he, hmin, hget⟩ := ih start
      rw [List.filterMap_cons_none hm]
      refine ⟨he, hmin, fun t => ?_⟩
      rw [hget t]
      refine if_congr ?_ rfl rfl
      rw [List.mem_cons]
      refine ⟨fun h => ⟨.inr h.1, h.2⟩, fun h => ⟨h.1.resolve_left ?_, h.2⟩⟩
      rintro rfl
      exact h.2 hg
    · have hm : b.sectionMember s = some (s.text, .arr cs) := by
        rw [sectionMember, hg, Option.map_some]
      obtain ⟨he, hmin, hget⟩ := ih (start.set s (some (cs.map raw)))
      rw [List.filterMap_cons_some hm]
      simp only [List.foldl_cons, adoptMember_section]
      refine ⟨he.trans (extra_set _ _ _), hmin.trans (minimumShouldMatch_set _ _ _), fun t => ?_⟩
      rw [hget t]
      -- what is set here is still there at the end unless the section comes once more
      by_cases ht : t ∈ rest ∧ b.get t ≠ none
      · rw [if_pos ht, if_pos ⟨List.mem_cons_of_mem s ht.1, ht.2⟩]
      · rw [if_neg ht]
        by_cases hts : t = s
        · subst hts
          rw [get_set_self, if_pos ⟨List.mem_cons_self, by rw [hg]; exact Option.some_ne_none cs⟩,
            hg, Option.map_some]
        · rw [get_set_of_ne _ _ hts, if_neg]
          exact fun h => ht ⟨(List.mem_cons.1 h.1).resolve_left hts, h.2⟩

/-- **Reading a written bool query** gives it back, with clauses read as raw ones. -/
theorem adopt_render {b : BoolQuery Value} (h : b.KeysApart) :
    adopt raw b.render = .ok (b.map raw) := by
  have hextra : b.extra.foldl (fun b m => b.adoptMember raw m.1 m.2) ({} : BoolQuery C) =
      { extra := b.extra } := by
    rw [foldl_adoptMember_extra h.minimum]
    · rw [Object.foldl_insert h.nodup fun _ _ => List.not_mem_nil, List.nil_append]
    · rintro ⟨k, v⟩ hm s rfl
      exact h.waiting (Object.find?_of_mem h.nodup hm)
  obtain ⟨he, hmin, hget⟩ := foldl_adoptMember_sections raw b Section.all { extra := b.extra }
  -- the members are read in the three stretches in which they were written
  rw [render, adopt, members_eq h, List.foldl_append, List.foldl_append, hextra]
  refine congrArg Except.ok ?_
  have hget' : ∀ t, (b.sectionMembers.foldl (fun b m => b.adoptMember raw m.1 m.2)
      ({ extra := b.extra } : BoolQuery C)).get t = (b.map raw).get t := by
    intro t
    rw [sectionMembers, hget t, get_map]
    rcases hg : b.get t with _ | cs
    · rw [if_neg fun hn => hn.2 rfl, Option.map_none]
      cases t <;> rfl
    · rw [if_pos ⟨t.mem_all, Option.some_ne_none cs⟩]
  rw [minimumMembers]
  rcases hv : b.minimumShouldMatch with _ | v
  · refine ext_get hget' (hmin.trans ?_) he
    rw [minimumShouldMatch_map, hv]
  · rw [Option.map_some, Option.toList_some, List.foldl_cons, List.foldl_nil, adoptMember_minimum]
    refine ext_get (fun t => ?_) ?_ he
    · rw [← hget' t]
      cases t <;> rfl
    · rw [minimumShouldMatch_map, hv]

end BoolQuery

namespace QueryRoot

variable {C : Type} {raw : Value → C}

/-- **Reading a written query** gives it back, with clauses read as raw ones. -/
theorem adopt_render {q : QueryRoot Value} (h : q.KeysApart) :
    adopt raw q.render = .ok (q.map raw) := by
  refine adopt_eq_ok_iff.2 ⟨q.members, rfl, ?_⟩
  obtain ⟨bool, named⟩ := q
  rcases bool with _ | b
  · exact .inl ⟨Object.find?_eq_none_iff.2 h.named, rfl⟩
  · refine .inr ⟨b.render, b.map raw, Object.find?_insert_self _ _ _, ?_, ?_⟩
    · exact BoolQuery.adopt_render (h.bool rfl)
    · rw [members, Object.erase_insert_of_not_mem _ h.named]
      rfl

/-- The same for a query of clauses: only their kinds are lost. -/
theorem adopt_toValue {q : QueryRoot Clause} (h : q.KeysApart) :
    adopt .raw q.toValue = .ok (q.map Clause.asRaw) := by
  rw [toValue, adopt_render (h.map Clause.toValue), map_map]
  rfl

end QueryRoot

end SearchRequest

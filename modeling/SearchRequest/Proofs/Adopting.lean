import Mathlib.Data.List.Perm.Basic
import SearchRequest.Proofs.Gaining
import SearchRequest.Proofs.Rejecting
import SearchRequest.Proofs.WrittenInFull

/-!
# Adopting raw queries

A raw query is taken apart when it is adopted: its bool query goes to one place and its other
members to another, and of the bool query the sections, the bound and the other parameters go their
own ways. When the query is written, all of them are put together again. This file compares what is
written with what was given.

* `Object.Regrouped` — the members of an object, each rewritten in its own way, in another order;
  some of them keep their order among themselves.
* `BoolQuery.KeptAs`, `QueryRoot.KeptAs` — what is written of an adopted query. Every member is
  there and nothing else is. The one change is that a single object under a section's key has become
  a list, as sections are written.
* `Builder.perform_setQuery` — which queries a builder adopts, and what it writes then.
-/

namespace SearchRequest

/-! ## Regrouped objects -/

/-- Up to their order, the members are those before, each rewritten. Those that the test picks are
what they were, in the order that they had. -/
structure Object.Regrouped (rewritten : String × Value → String × Value → Prop)
    (inOrder : String × Value → Bool) (before after : Object) : Prop where
  members : ∃ row : Object, List.Forall₂ rewritten before row ∧ after.Perm row
  order : after.filter inOrder = before.filter inOrder

/-! ## Bool queries -/

namespace BoolQuery

/-- How a member of a raw bool query is written: under a section's key an object becomes a list, and
all else is left as it is. -/
def regroup (m : String × Value) : String × Value :=
  match Section.ofText? m.1, m.2 with
  | some _, .obj members => (m.1, .arr [.obj members])
  | _, v => (m.1, v)

/-- The member is neither a section nor the bound on optional clauses. -/
def isParameter (m : String × Value) : Bool :=
  (Section.ofText? m.1).isNone && m.1 != minimumKey

/-- What is written of an adopted bool query. The parameters keep their order. -/
def KeptAs (body written : Object) : Prop :=
  Object.Regrouped (fun m m' => m' = regroup m) isParameter body written

/-- Keys are left as they are. -/
theorem regroup_fst (m : String × Value) : (regroup m).1 = m.1 := by
  unfold regroup
  split <;> rfl

theorem regroup_section (s : Section) (items : List Value) :
    regroup (s.text, .arr items) = (s.text, .arr items) := by
  rw [regroup, Section.ofText?_text]

theorem regroup_section_obj (s : Section) (members : Object) :
    regroup (s.text, .obj members) = (s.text, .arr [.obj members]) := by
  rw [regroup, Section.ofText?_text]

/-- A member is left as it is unless it is an object under a section's key. -/
theorem regroup_other {key : String} {v : Value}
    (hs : ∀ s : Section, s.text = key → v.isContainer = false) : regroup (key, v) = (key, v) := by
  unfold regroup
  rcases ho : Section.ofText? key with _ | s
  · rfl
  · have hv := hs s (Section.text_of_ofText? ho)
    cases v with
    | obj members => cases hv
    | _ => rfl

theorem isParameter_section (s : Section) (v : Value) : isParameter (s.text, v) = false := by
  rw [isParameter, Section.ofText?_text]
  rfl

theorem isParameter_minimum (v : Value) : isParameter (minimumKey, v) = false := by
  rw [isParameter, bne_self_eq_false, Bool.and_false]

variable {b : BoolQuery Value}

/-! ### Written bool queries that grow -/

/-- Among the members that are written, the parameters are those beside the sections. -/
theorem filter_members (h : b.KeysApart) :
    b.members.filter isParameter = b.extra.filter isParameter := by
  have hsections : b.sectionMembers.filter isParameter = [] := by
    rw [List.filter_eq_nil_iff]
    intro m hm
    obtain ⟨s, cs, -, rfl⟩ := exists_of_mem_sectionMembers hm
    simp [isParameter_section]
  have hminimum : b.minimumMembers.filter isParameter = [] := by
    rw [minimumMembers]
    rcases b.minimumShouldMatch with _ | v
    · rfl
    · exact List.filter_cons_of_neg (by simp [isParameter_minimum])
  rw [members_eq h, List.filter_append, List.filter_append, hsections, hminimum, List.append_nil,
    List.append_nil]

/-- A key that is not written is that of nothing in the query. -/
theorem free_of_not_mem (h : b.KeysApart) {key : String} (hk : key ∉ b.members.keys) :
    b.Free key ∧ (key = minimumKey → b.minimumShouldMatch = none) := by
  rw [members_eq h, Object.keys_append, Object.keys_append, List.mem_append, List.mem_append,
    not_or, not_or] at hk
  obtain ⟨hextra, hsections, hminimum⟩ := hk
  refine ⟨⟨hextra, ?_⟩, ?_⟩
  · rintro s rfl
    by_contra hg
    obtain ⟨cs, hg⟩ := Option.ne_none_iff_exists'.1 hg
    have hmember : b.sectionMember s = some (s.text, .arr cs) := by
      rw [sectionMember, hg, Option.map_some]
    have hm : (s.text, .arr cs) ∈ b.sectionMembers :=
      List.mem_filterMap.2 ⟨s, s.mem_all, hmember⟩
    exact hsections (List.mem_map.2 ⟨_, hm, rfl⟩)
  · rintro rfl
    rw [minimumMembers] at hminimum
    rcases hv : b.minimumShouldMatch with _ | v
    · rfl
    · rw [hv] at hminimum
      exact absurd (List.mem_singleton.2 rfl) hminimum

/-- A section that is set where there was none is one more member. -/
theorem sectionMembers_set {s : Section} (hs : b.get s = none) (cs : List Value) :
    (b.set s (some cs)).sectionMembers.Perm (b.sectionMembers ++ [(s.text, .arr cs)]) := by
  have hself : (b.set s (some cs)).sectionMember s = some (s.text, .arr cs) := by
    rw [sectionMember, get_set_self, Option.map_some]
  have hother {t : Section} (ht : t ≠ s) :
      (b.set s (some cs)).sectionMember t = b.sectionMember t := by
    rw [sectionMember, sectionMember, get_set_of_ne b _ ht]
  have habsent : b.sectionMember s = none := by
    rw [sectionMember, hs, Option.map_none]
  have hrow (sections : List Section) (hn : sections.Nodup) (hmem : s ∈ sections) :
      (sections.filterMap (b.set s (some cs)).sectionMember).Perm
        (sections.filterMap b.sectionMember ++ [(s.text, .arr cs)]) := by
    induction sections with
    | nil => cases hmem
    | cons t rest ih =>
      rw [List.nodup_cons] at hn
      by_cases ht : t = s
      · subst ht
        have hrest : rest.filterMap (b.set t (some cs)).sectionMember =
            rest.filterMap b.sectionMember :=
          List.filterMap_congr fun u hu => hother fun he => hn.1 (he ▸ hu)
        rw [List.filterMap_cons_some hself, List.filterMap_cons_none habsent, hrest]
        exact (List.perm_append_singleton _ _).symm
      · have hrest := ih hn.2 ((List.mem_cons.1 hmem).resolve_left (Ne.symm ht))
        rcases hm : b.sectionMember t with _ | m
        · rw [List.filterMap_cons_none hm, List.filterMap_cons_none ((hother ht).trans hm)]
          exact hrest
        · rw [List.filterMap_cons_some hm, List.filterMap_cons_some ((hother ht).trans hm)]
          exact hrest.cons m
  exact hrow Section.all (by decide) s.mem_all

/-- A list or an object under a section's key is taken for its clauses. -/
theorem adoptMember_container (b : BoolQuery Value) (s : Section) {v : Value}
    (hv : v.isContainer = true) :
    ∃ cs, b.adoptMember id s.text v = b.set s (some cs) ∧
      regroup (s.text, v) = (s.text, .arr cs) := by
  cases v with
  | arr items =>
    refine ⟨items, ?_, regroup_section s items⟩
    rw [adoptMember_section, List.map_id]
  | obj members =>
    refine ⟨[.obj members], ?_, regroup_section_obj s members⟩
    unfold adoptMember
    rw [Section.ofText?_text]
    rfl
  | _ => cases hv

/-- A member is the bound, clauses for a section, or kept as it is. -/
theorem member_cases (key : String) (v : Value) :
    key = minimumKey ∨ (∃ s : Section, s.text = key ∧ v.isContainer = true) ∨
      key ≠ minimumKey ∧ ∀ s : Section, s.text = key → v.isContainer = false := by
  by_cases hm : key = minimumKey
  · exact .inl hm
  · by_cases hs : ∃ s : Section, s.text = key ∧ v.isContainer = true
    · exact .inr (.inl hs)
    · exact .inr (.inr ⟨hm, fun s hk => Bool.eq_false_iff.2 fun hv => hs ⟨s, hk, hv⟩⟩)

/-- **One member more** is written after it was taken over under a new key. -/
theorem members_adoptMember (h : b.KeysApart) {key : String} (hk : key ∉ b.members.keys)
    (v : Value) : (b.adoptMember id key v).members.Perm (b.members ++ [regroup (key, v)]) := by
  obtain ⟨hfree, hminimum⟩ := free_of_not_mem h hk
  have hlast (a c : Object) (m : String × Value) : (a ++ [m] ++ c).Perm (a ++ c ++ [m]) := by
    rw [List.append_assoc, List.append_assoc]
    exact List.perm_append_comm.append_left a
  rw [members_eq (h.adoptMember hfree v), members_eq h]
  rcases member_cases key v with rfl | ⟨s, rfl, hv⟩ | ⟨hm, hs⟩
  · have hnone : b.minimumMembers = [] := by
      rw [minimumMembers, hminimum rfl]
      rfl
    rw [adoptMember_minimum, regroup_other fun s hs => absurd hs.symm (minimumKey_ne_text s), hnone,
      List.append_nil, List.append_assoc]
    exact .refl _
  · obtain ⟨cs, hset, hregroup⟩ := adoptMember_container b s hv
    have hbound : (b.set s (some cs)).minimumMembers = b.minimumMembers := by
      rw [minimumMembers, minimumShouldMatch_set, minimumMembers]
    rw [hset, hregroup, extra_set, hbound, List.append_assoc]
    refine List.Perm.append_left _ ?_
    exact ((sectionMembers_set (hfree.2 s rfl) cs).append_right _).trans (hlast _ _ _)
  · rw [adoptMember_other b hm hs, regroup_other hs]
    simp only [Object.insert_of_not_mem v hfree.1]
    exact hlast _ _ _

/-- Of the parameters, a new one is the last. -/
theorem filter_members_adoptMember (h : b.KeysApart) {key : String} (hk : key ∉ b.members.keys)
    (v : Value) :
    (b.adoptMember id key v).members.filter isParameter =
      (b.members ++ [(key, v)]).filter isParameter := by
  obtain ⟨hfree, -⟩ := free_of_not_mem h hk
  rw [filter_members (h.adoptMember hfree v), List.filter_append, filter_members h]
  rcases member_cases key v with rfl | ⟨s, rfl, hv⟩ | ⟨hm, hs⟩
  · have hno : [(minimumKey, v)].filter isParameter = [] :=
      List.filter_cons_of_neg (by simp [isParameter_minimum])
    rw [adoptMember_minimum, hno, List.append_nil]
  · obtain ⟨cs, hset, -⟩ := adoptMember_container b s hv
    have hno : [(s.text, v)].filter isParameter = [] :=
      List.filter_cons_of_neg (by simp [isParameter_section])
    rw [hset, extra_set, hno, List.append_nil]
  · rw [adoptMember_other b hm hs]
    simp only [Object.insert_of_not_mem v hfree.1, List.filter_append]

/-- Members under new keys are taken over one by one, and written behind the others. -/
theorem members_foldl_adoptMember {body : Object} (h : b.KeysApart) (hn : body.keys.Nodup)
    (hk : ∀ k ∈ body.keys, k ∉ b.members.keys) :
    let after := body.foldl (fun b m => b.adoptMember id m.1 m.2) b
    after.members.Perm (b.members ++ body.map regroup) ∧
      after.members.filter isParameter = (b.members ++ body).filter isParameter := by
  induction body generalizing b with
  | nil => exact ⟨by simp, by simp⟩
  | cons m rest ih =>
    obtain ⟨k, v⟩ := m
    rw [Object.keys_cons, List.nodup_cons] at hn
    have hfirst : k ∉ b.members.keys := hk k List.mem_cons_self
    have hperm := members_adoptMember h hfirst v
    have horder := filter_members_adoptMember h hfirst v
    have h' : (b.adoptMember id k v).KeysApart := h.adoptMember (free_of_not_mem h hfirst).1 v
    -- the keys behind the first one are not written yet
    have hkeys : (b.adoptMember id k v).members.keys.Perm (b.members.keys ++ [k]) := by
      have hp := hperm.map Prod.fst
      rwa [List.map_append, List.map_singleton, regroup_fst] at hp
    have hrest : ∀ k' ∈ Object.keys rest, k' ∉ (b.adoptMember id k v).members.keys := by
      intro k' hk' hm
      rcases List.mem_append.1 (hkeys.mem_iff.1 hm) with hm | hm
      · exact hk k' (List.mem_cons_of_mem k hk') hm
      · exact hn.1 (List.mem_singleton.1 hm ▸ hk')
    obtain ⟨hperm', horder'⟩ := ih h' hn.2 hrest
    constructor
    · refine hperm'.trans ((hperm.append_right _).trans ?_)
      rw [List.append_assoc, List.map_cons, List.singleton_append]
    · rw [List.foldl_cons, horder', List.filter_append, horder, ← List.filter_append,
        List.append_assoc, List.singleton_append]

/-- **An adopted bool query** is written with all its members. -/
theorem keptAs_of_adopt {b : BoolQuery Value} {body : Object}
    (hw : (Value.obj body).wellFormed = true) (h : adopt id (.obj body) = .ok b) :
    KeptAs body b.members := by
  obtain ⟨_, hv, rfl⟩ := adopt_eq_ok_iff.1 h
  obtain rfl := Value.obj.inj hv
  have hn : body.keys.Nodup := (Value.wellFormed_obj.1 hw).1
  obtain ⟨hperm, horder⟩ := members_foldl_adoptMember .empty hn fun _ _ => List.not_mem_nil
  have hrow : List.Forall₂ (fun m m' => m' = regroup m) body (body.map regroup) :=
    List.forall₂_map_right_iff.2 (List.forall₂_same.2 fun _ _ => rfl)
  exact ⟨⟨body.map regroup, hrow, hperm⟩, horder⟩

/-! ### Clauses of another kind -/

variable {C D : Type} {f : C → D} {raw : Value → C} {raw' : Value → D}

theorem map_adoptMember (hraw : ∀ v, f (raw v) = raw' v) (b : BoolQuery C) (key : String)
    (v : Value) : (b.adoptMember raw key v).map f = (b.map f).adoptMember raw' key v := by
  unfold adoptMember
  rcases Section.ofText? key with _ | s
  · by_cases hk : key = minimumKey
    · simp only [if_pos hk]
      rfl
    · simp only [if_neg hk]
      rfl
  · cases v with
    | arr items =>
      have hitems : (items.map raw).map f = items.map raw' := by
        rw [List.map_map]
        exact List.map_congr_left fun v _ => hraw v
      exact (map_set b s _).trans (congrArg (fun cs => (b.map f).set s (some cs)) hitems)
    | obj members =>
      exact (map_set b s _).trans
        (congrArg (fun c => (b.map f).set s (some [c])) (hraw (.obj members)))
    | _ => rfl

/-- The clauses of an adopted bool query can be read in another way. -/
theorem adopt_map (hraw : ∀ v, f (raw v) = raw' v) {v : Value} {b : BoolQuery C}
    (h : adopt raw v = .ok b) : adopt raw' v = .ok (b.map f) := by
  obtain ⟨body, rfl, rfl⟩ := adopt_eq_ok_iff.1 h
  refine adopt_eq_ok_iff.2 ⟨body, rfl, ?_⟩
  exact (List.foldl_hom (map f) fun b m => (map_adoptMember hraw b m.1 m.2).symm).symm

end BoolQuery

/-! ## Query roots -/

namespace QueryRoot

/-- How a member of a raw query is written: the bool query with its own members regrouped, and all
else as it is. -/
inductive Regroups : String × Value → String × Value → Prop
  | bool {body written : Object} (h : BoolQuery.KeptAs body written) :
      Regroups (boolKey, .obj body) (boolKey, .obj written)
  | other {m : String × Value} (h : m.1 ≠ boolKey) : Regroups m m

/-- What is written of an adopted query. The queries beside the bool query keep their order. -/
def KeptAs (members written : Object) : Prop :=
  Object.Regrouped Regroups (fun m => m.1 != boolKey) members written

/-- A query without a bool query is written as it is. -/
theorem KeptAs.of_not_mem {members : Object} (h : boolKey ∉ members.keys) :
    KeptAs members members := by
  have hother (m) (hm : m ∈ members) : Regroups m m :=
    .other fun hk => h (List.mem_map.2 ⟨m, hm, hk⟩)
  exact ⟨⟨members, List.forall₂_same.2 hother, .refl _⟩, rfl⟩

/-- With a bool query, this is written last. -/
theorem exists_row {members body written : Object} (hn : members.keys.Nodup)
    (hf : members.find? boolKey = some (.obj body)) (h : BoolQuery.KeptAs body written) :
    ∃ row : Object, List.Forall₂ Regroups members row ∧
      (members.erase boolKey ++ [(boolKey, Value.obj written)]).Perm row := by
  induction members with
  | nil => cases hf
  | cons m rest ih =>
    obtain ⟨k, v⟩ := m
    rw [Object.keys_cons, List.nodup_cons] at hn
    rw [Object.find?_cons] at hf
    by_cases hk : k = boolKey
    · -- there is no other bool query behind this one
      subst hk
      rw [if_pos rfl] at hf
      obtain rfl := Option.some.inj hf
      have hother (m) (hm : m ∈ rest) : Regroups m m :=
        .other fun hk => hn.1 (List.mem_map.2 ⟨m, hm, hk⟩)
      refine ⟨(boolKey, .obj written) :: rest, .cons (.bool h) (List.forall₂_same.2 hother), ?_⟩
      rw [Object.erase, if_pos rfl, Object.erase_of_not_mem hn.1]
      exact List.perm_append_singleton _ rest
    · rw [if_neg hk] at hf
      obtain ⟨row, hrow, hperm⟩ := ih hn.2 hf
      refine ⟨(k, v) :: row, .cons (.other hk) hrow, ?_⟩
      rw [Object.erase, if_neg hk]
      exact hperm.cons _

theorem KeptAs.of_find? {members body written : Object} (hn : members.keys.Nodup)
    (hf : members.find? boolKey = some (.obj body)) (h : BoolQuery.KeptAs body written) :
    KeptAs members (members.erase boolKey ++ [(boolKey, .obj written)]) := by
  refine ⟨exists_row hn hf h, ?_⟩
  rw [List.filter_append, List.filter_cons_of_neg (by simp), List.filter_nil, List.append_nil,
    Object.erase_eq_filter, List.filter_filter]
  refine List.filter_congr fun m _ => ?_
  rw [bne_comm, Bool.and_self]

/-- **An adopted query** is written with all its members. -/
theorem keptAs_of_adopt {q : QueryRoot Clause} {members : Object}
    (hw : (Value.obj members).wellFormed = true) (h : adopt .raw (.obj members) = .ok q) :
    ∃ written, q.toValue = .obj written ∧ KeptAs members written := by
  have hn : members.keys.Nodup := (Value.wellFormed_obj.1 hw).1
  obtain ⟨_, hv, ⟨hf, rfl⟩ | ⟨body, b, hf, hb, rfl⟩⟩ := adopt_eq_ok_iff.1 h
  · obtain rfl := Value.obj.inj hv
    exact ⟨members, rfl, .of_not_mem (Object.find?_eq_none_iff.1 hf)⟩
  · obtain rfl := Value.obj.inj hv
    obtain ⟨body, rfl, -⟩ := BoolQuery.adopt_eq_ok_iff.1 hb
    have hraw (v : Value) : (Clause.raw v).toValue = id v := rfl
    have hbody : BoolQuery.KeptAs body (b.map Clause.toValue).members :=
      BoolQuery.keptAs_of_adopt (Object.wellFormed_of_find? hw hf) (BoolQuery.adopt_map hraw hb)
    refine ⟨_, ?_, .of_find? hn hf hbody⟩
    rw [← Object.insert_of_not_mem _ (by simp [Object.mem_keys_erase])]
    rfl

/-- A query is not adopted if it is no object, or has a bool query that is none. -/
theorem adopt_eq_error_iff {C : Type} {raw : Value → C} {v : Value} {r : Rejection} :
    adopt raw v = .error r ↔
      (v.isObject = false ∧ r = Fault.queryNotObject.reject "query" "set_query") ∨
        (∃ body, v.at? ["bool"] = some body ∧ body.isObject = false) ∧
          r = Fault.boolNotObject.reject "query" "set_query" := by
  cases v with
  | obj members =>
    have hat : (Value.obj members).at? ["bool"] = Object.find? members boolKey :=
      Option.bind_fun_some _
    rw [adopt, hat]
    rcases Object.find? members boolKey with _ | body
    · simp [Value.isObject, Value.object?]
    · cases body <;> simp [BoolQuery.adopt, Value.isObject, Value.object?, @eq_comm _ r]
  | _ => simp [adopt, Value.isObject, Value.object?, Value.at?, @eq_comm _ r]

end QueryRoot

/-! ## Builders -/

namespace Builder

/-- What a builder does with a raw query is decided by whether it can be adopted. -/
theorem perform_setQuery_eq (b : Builder) (v : Value) :
    b.perform (.step (.setQuery v)) =
      match QueryRoot.adopt .raw v with
      | .ok q => ({ b with document := { b.document with query := some q } }, none)
      | .error r => (b, some r) := by
  rcases hq : QueryRoot.adopt Clause.raw v with r | q
  · have hedit : (Step.setQuery v).edit b.config = .error r := by
      rw [Step.edit, hq]
      rfl
    exact perform_of_edit_error hedit
  · have hedit : (Step.setQuery v).edit b.config = .ok (.replaceQuery q) := by
      rw [Step.edit, hq]
      rfl
    exact perform_of_edit hedit rfl

/-- **Adopting a raw query.** A builder rejects it exactly if it is no object or has a bool query
that is none, and nothing changes then. Else it is the query of the builder, and is written with all
its members and nothing else: in `bool` a single object under a section's key has become a list, and
every other value is as it was given. The queries beside `bool` keep their order, and so do the
parameters in `bool` that are neither sections nor the bound on optional clauses. -/
theorem perform_setQuery (b : Builder) (v : Value) :
    let after := b.perform (.step (.setQuery v))
    (after.2 ≠ none ↔
        v.isObject = false ∨ ∃ body, v.at? ["bool"] = some body ∧ body.isObject = false) ∧
      (∀ r, after.2 = some r → r.code = .invalidQueryObject ∧ after.1 = b) ∧
      (v.wellFormed = true → after.2 = none →
        ∃ q members written, v = .obj members ∧
          after.1 = { b with document := { b.document with query := some q } } ∧
          after.1.document.toValue.at? ["query"] = some (.obj written) ∧
          QueryRoot.KeptAs members written) := by
  intro after
  have hafter : after = match QueryRoot.adopt .raw v with
      | .ok q => ({ b with document := { b.document with query := some q } }, none)
      | .error r => (b, some r) := perform_setQuery_eq b v
  rcases hq : QueryRoot.adopt Clause.raw v with r | q
  · rw [hq] at hafter
    rw [hafter]
    have hwhy := QueryRoot.adopt_eq_error_iff.1 hq
    refine ⟨⟨fun _ => hwhy.imp And.left And.left, fun _ => Option.some_ne_none r⟩, ?_, ?_⟩
    · intro r' hr
      obtain rfl := Option.some.inj hr
      rcases hwhy with ⟨-, rfl⟩ | ⟨-, rfl⟩ <;> exact ⟨rfl, rfl⟩
    · intro _ hdone
      cases hdone
  · rw [hq] at hafter
    rw [hafter]
    refine ⟨⟨fun hr => absurd rfl hr, fun hwhy => ?_⟩, ?_, ?_⟩
    · -- a reason to reject the query would have kept it from being adopted
      rcases hwhy with hv | hbody
      · cases hq.symm.trans (QueryRoot.adopt_eq_error_iff.2 (.inl ⟨hv, rfl⟩))
      · cases hq.symm.trans (QueryRoot.adopt_eq_error_iff.2 (.inr ⟨hbody, rfl⟩))
    · intro r hr
      cases hr
    · intro hw _
      obtain ⟨members, rfl, -⟩ := QueryRoot.adopt_eq_ok_iff.1 hq
      obtain ⟨written, hwritten, hkept⟩ := QueryRoot.keptAs_of_adopt hw hq
      refine ⟨q, members, written, rfl, rfl, ?_, hkept⟩
      rw [Document.at?_query rfl, hwritten]
      rfl

/-- A query with everything in it: a sibling on each side of `bool`, and in `bool` the four sections
as an object, as a list, as a text and absent, with `null` for the bound. -/
theorem perform_setQuery_of_all :
    let title : Object := [("exists", .single "field" (.str "title"))]
    let before := ("knn", .single "k" (.int 3))
    let behind := ("rank", .arr [])
    let body : Object :=
      [("minimum_should_match", .null), ("must", .obj title), ("boost", .int 2),
       ("should", .str "later"), ("filter", .arr [.int 1, .null]), ("name", .str "all")]
    let given : Value := .obj [before, ("bool", .obj body), behind]
    let written : Object :=
      [("boost", .int 2), ("should", .str "later"), ("name", .str "all"),
       ("must", .arr [.obj title]), ("filter", .arr [.int 1, .null]),
       ("minimum_should_match", .null)]
    let after := (start {}).perform (.step (.setQuery given))
    given.wellFormed = true ∧ after.2 = none ∧
      after.1.document.toValue.at? ["query"] =
        some (.obj [before, behind, ("bool", .obj written)]) ∧
      QueryRoot.KeptAs [before, ("bool", .obj body), behind]
        [before, behind, ("bool", .obj written)] := by
  intro title before behind body given written after
  have hw : given.wellFormed = true := by decide
  have hdone : after.2 = none := rfl
  have hquery : after.1.document.toValue.at? ["query"] =
      some (.obj [before, behind, ("bool", .obj written)]) := rfl
  obtain ⟨-, -, hkept⟩ := perform_setQuery (start {}) given
  obtain ⟨q, members, written', hv, -, hat, hkept⟩ := hkept hw hdone
  obtain rfl := Value.obj.inj hv
  obtain rfl := Value.obj.inj (Option.some.inj (hat.symm.trans hquery))
  exact ⟨hw, hdone, hquery, hkept⟩

end Builder

end SearchRequest

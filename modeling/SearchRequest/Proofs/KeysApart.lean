import SearchRequest.Proofs.Mapping
import SearchRequest.Proofs.Reached

/-!
# Keys that stay apart

A written bool query takes its keys from three places: the sections, the bound on optional clauses,
and the other parameters. They are written one after the other into one object, so that a key in two
places would silently cost a member. `BoolQuery.KeysApart` says that no key is in two places;
`QueryRoot.KeysApart` says the same of a root, whose keys are `bool` and the names of its other
queries.

The main statement is `QueryRoot.Reached.keysApart`: the keys of every query that builders come to
stay apart, provided that the raw queries adopted on the way are well formed. With a key twice in
its `bool` body, a raw query could put a section's key in two places.
-/

namespace SearchRequest

/-- A list or an object. Under a section's key only these are read as clauses. -/
def Value.isContainer : Value → Bool
  | .arr _ | .obj _ => true
  | _ => false

/-! ## Bool queries -/

namespace BoolQuery

variable {C D : Type} {raw : Value → C}

/-- No key has two places in the query. -/
structure KeysApart (b : BoolQuery C) : Prop where
  /-- the other parameters have distinct keys -/
  nodup : b.extra.keys.Nodup
  /-- the bound is not among them -/
  minimum : minimumKey ∉ b.extra.keys
  /-- nor is an installed section -/
  installed : ∀ {s : Section} {cs : List C}, b.get s = some cs → s.text ∉ b.extra.keys
  /-- a value that waits for an absent section is neither a list nor an object -/
  waiting : ∀ {s : Section} {v : Value}, b.extra.find? s.text = some v → v.isContainer = false

theorem minimumKey_ne_text (s : Section) : minimumKey ≠ s.text := by
  cases s <;> decide

/-- The key is that of a section or not. In the first case the section is absent, and in both the
key is not among the other parameters. -/
def Free (b : BoolQuery C) (key : String) : Prop :=
  key ∉ b.extra.keys ∧ ∀ s, s.text = key → b.get s = none

namespace KeysApart

variable {b : BoolQuery C}

theorem empty : ({} : BoolQuery C).KeysApart where
  nodup := List.nodup_nil
  minimum := List.not_mem_nil
  installed _ := List.not_mem_nil
  waiting h := by cases h

theorem wrapper : (BoolQuery.wrapper : BoolQuery C).KeysApart where
  nodup := List.nodup_nil
  minimum := List.not_mem_nil
  installed _ := List.not_mem_nil
  waiting h := by cases h

/-- A section whose key is not among the other parameters can be replaced. -/
theorem set (h : b.KeysApart) {s : Section} (hs : s.text ∉ b.extra.keys)
    (cs? : Option (List C)) : (b.set s cs?).KeysApart where
  nodup := by rw [extra_set]; exact h.nodup
  minimum := by rw [extra_set]; exact h.minimum
  installed := by
    intro t cs ht
    rw [extra_set]
    by_cases hts : t = s
    · exact hts ▸ hs
    · rw [get_set_of_ne b cs? hts] at ht
      exact h.installed ht
  waiting := by rw [extra_set]; exact h.waiting

/-- The bound is written in its own place. -/
theorem setMinimum (h : b.KeysApart) (v? : Option Value) :
    { b with minimumShouldMatch := v? }.KeysApart where
  nodup := h.nodup
  minimum := h.minimum
  installed := by
    intro s cs hs
    have hg : b.get s = some cs := by
      cases s <;> exact hs
    exact h.installed hg
  waiting := h.waiting

/-- A parameter can be added unless its key is the bound's or an installed section's. Under the key
of an absent section it must be neither a list nor an object. -/
theorem insert (h : b.KeysApart) {key : String} {v : Value} (hm : key ≠ minimumKey)
    (hs : ∀ s, s.text = key → b.get s = none ∧ v.isContainer = false) :
    { b with extra := b.extra.insert key v }.KeysApart where
  nodup := Object.nodup_keys_insert h.nodup key v
  minimum := by
    rw [Object.mem_keys_insert, not_or]
    exact ⟨Ne.symm hm, h.minimum⟩
  installed := by
    intro s cs hg
    have hg' : b.get s = some cs := by
      cases s <;> exact hg
    rw [Object.mem_keys_insert, not_or]
    refine ⟨fun hk => ?_, h.installed hg'⟩
    rw [(hs s hk).1] at hg'
    cases hg'
  waiting := by
    intro s w hf
    by_cases hk : s.text = key
    · rw [hk, Object.find?_insert_self] at hf
      obtain rfl := Option.some.inj hf
      exact (hs s hk).2
    · rw [Object.find?_insert_of_ne _ _ hk] at hf
      exact h.waiting hf

/-- Installing a section takes the value that waited for it out of the other parameters. -/
theorem install (h : b.KeysApart) (s : Section) : (b.install raw s).KeysApart := by
  have hsub : ∀ k, k ∈ (b.install raw s).extra.keys → k ∈ b.extra.keys := by
    intro k hk
    rw [extra_install] at hk
    by_cases hg : b.get s = none
    · rw [if_pos hg] at hk
      exact (Object.mem_keys_erase.1 hk).1
    · rwa [if_neg hg] at hk
  constructor
  · rw [extra_install]
    by_cases hg : b.get s = none
    · rw [if_pos hg]
      exact Object.nodup_keys_erase h.nodup _
    · rw [if_neg hg]
      exact h.nodup
  · exact fun hm => h.minimum (hsub _ hm)
  -- the section that is installed has lost its key, and the others were not touched
  · intro t cs ht hm
    rw [get_install] at ht
    by_cases hts : t = s
    · rw [hts, extra_install] at hm
      rcases hg : b.get s with _ | cs'
      · rw [if_pos hg] at hm
        exact (Object.mem_keys_erase.1 hm).2 rfl
      · rw [if_neg (by rw [hg]; exact Option.some_ne_none cs')] at hm
        exact h.installed hg hm
    · rw [if_neg hts] at ht
      exact h.installed ht (hsub _ hm)
  · intro t v hf
    rw [extra_install] at hf
    by_cases hg : b.get s = none
    · rw [if_pos hg] at hf
      by_cases hts : t = s
      · rw [hts, Object.find?_erase_self] at hf
        cases hf
      · rw [Object.find?_erase_of_ne _ (Section.text_ne hts)] at hf
        exact h.waiting hf
    · rw [if_neg hg] at hf
      exact h.waiting hf

theorem foldl_install (h : b.KeysApart) (sections : List Section) :
    (sections.foldl (BoolQuery.install raw) b).KeysApart := by
  induction sections generalizing b with
  | nil => exact h
  | cons s rest ih => exact ih (h.install s)

theorem installAll (h : b.KeysApart) : (b.installAll raw).KeysApart := h.foldl_install _

/-- Appending installs the section first. -/
theorem append (h : b.KeysApart) (s : Section) (cs : List C) : (b.append raw s cs).KeysApart := by
  have hg : (b.install raw s).get s = some (b.upcoming raw s) := by
    rw [get_install, if_pos rfl]
  exact (h.install s).set ((h.install s).installed hg) _

/-- The finalizer only makes sections absent. -/
theorem prune (h : b.KeysApart) : b.prune.KeysApart where
  nodup := h.nodup
  minimum := h.minimum
  installed := by
    intro s cs hs
    rw [get_prune] at hs
    rcases hg : b.get s with _ | cs'
    · rw [hg] at hs
      cases hs
    · exact h.installed hg
  waiting := h.waiting

/-- What the clauses are does not matter. -/
theorem map (h : b.KeysApart) (f : C → D) : (b.map f).KeysApart where
  nodup := h.nodup
  minimum := h.minimum
  installed := by
    intro s cs hs
    rw [get_map, Option.map_eq_some_iff] at hs
    obtain ⟨cs', hg, -⟩ := hs
    exact h.installed hg
  waiting := h.waiting

/-! ### Adopted bool queries -/

/-- Taking over a member under a free key keeps the keys apart. -/
theorem adoptMember (h : b.KeysApart) {key : String} (hf : b.Free key) (v : Value) :
    (b.adoptMember raw key v).KeysApart := by
  unfold BoolQuery.adoptMember
  rcases hs : Section.ofText? key with _ | s
  · by_cases hk : key = minimumKey
    · simp only [if_pos hk]
      exact h.setMinimum _
    · simp only [if_neg hk]
      refine h.insert hk ?_
      rintro s rfl
      rw [Section.ofText?_text] at hs
      cases hs
  · have ht : s.text = key := Section.text_of_ofText? hs
    have hm : key ≠ minimumKey := fun hk => minimumKey_ne_text s (hk ▸ ht.symm)
    have ha : s.text ∉ b.extra.keys := ht ▸ hf.1
    cases v with
    | arr items => exact h.set ha _
    | obj members => exact h.set ha _
    | _ => exact h.insert hm fun t htk => ⟨hf.2 t htk, rfl⟩

end KeysApart

/-- Taking over one member leaves other keys free. -/
theorem Free.adoptMember {b : BoolQuery C} {key other : String} (hf : b.Free other)
    (hne : other ≠ key) (v : Value) : (b.adoptMember raw key v).Free other := by
  have hset : ∀ s cs?, s.text = key → (b.set s cs?).Free other := by
    intro s cs? hs
    refine ⟨by rw [extra_set]; exact hf.1, fun t ht => ?_⟩
    rw [get_set_of_ne b cs? (fun hts : t = s => hne (ht ▸ hts ▸ hs))]
    exact hf.2 t ht
  have hinsert : ({ b with extra := b.extra.insert key v } : BoolQuery C).Free other := by
    refine ⟨?_, fun t ht => ?_⟩
    · rw [Object.mem_keys_insert, not_or]
      exact ⟨hne, hf.1⟩
    · have := hf.2 t ht
      cases t <;> exact this
  unfold BoolQuery.adoptMember
  rcases hs : Section.ofText? key with _ | s
  · by_cases hk : key = minimumKey
    · simp only [if_pos hk]
      refine ⟨hf.1, fun t ht => ?_⟩
      have := hf.2 t ht
      cases t <;> exact this
    · simp only [if_neg hk]
      exact hinsert
  · cases v with
    | arr items => exact hset s _ (Section.text_of_ofText? hs)
    | obj members => exact hset s _ (Section.text_of_ofText? hs)
    | _ => exact hinsert

/-- Members with distinct free keys are taken over one by one. -/
theorem KeysApart.foldl_adoptMember {b : BoolQuery C} {members : Object} (h : b.KeysApart)
    (hn : members.keys.Nodup) (hf : ∀ k ∈ members.keys, b.Free k) :
    (members.foldl (fun b m => b.adoptMember raw m.1 m.2) b).KeysApart := by
  induction members generalizing b with
  | nil => exact h
  | cons m rest ih =>
    -- the keys behind the first one differ from it, so they stay free
    obtain ⟨k, v⟩ := m
    rw [Object.keys_cons, List.nodup_cons] at hn
    refine ih (h.adoptMember (hf k List.mem_cons_self) v) hn.2 ?_
    intro k' hk'
    refine (hf k' (List.mem_cons_of_mem k hk')).adoptMember ?_ v
    rintro rfl
    exact hn.1 hk'

/-- The keys of an adopted bool query stay apart if the raw one is well formed. -/
theorem KeysApart.of_adopt {b : BoolQuery C} {v : Value} (hw : v.wellFormed = true)
    (h : adopt raw v = .ok b) : b.KeysApart := by
  obtain ⟨members, rfl, rfl⟩ := adopt_eq_ok_iff.1 h
  refine KeysApart.empty.foldl_adoptMember (Value.wellFormed_obj.1 hw).1 ?_
  intro k _
  refine ⟨List.not_mem_nil, fun s _ => ?_⟩
  cases s <;> rfl

end BoolQuery

/-! ## Query roots -/

/-- No wrapper takes the place of the bool query. -/
theorem Wrapper.kind_ne_boolKey (w : Wrapper) : w.kind ≠ QueryRoot.boolKey := by
  rcases w with ⟨functions, options⟩ | boost
  · exact (by decide : "function_score" ≠ "bool")
  · exact (by decide : "constant_score" ≠ "bool")

namespace QueryRoot

variable {C D : Type} {raw : Value → C}

/-- No key has two places in the query. -/
structure KeysApart (q : QueryRoot C) : Prop where
  /-- the bool query is not among the others -/
  named : boolKey ∉ q.named.keys
  bool : ∀ {b : BoolQuery C}, q.bool = some b → b.KeysApart

namespace KeysApart

variable {q : QueryRoot C}

theorem wrapper : (QueryRoot.wrapper : QueryRoot C).KeysApart where
  named := List.not_mem_nil
  bool h := by
    obtain rfl := Option.some.inj h
    exact .wrapper

theorem ofNamed {kind : String} (h : kind ≠ boolKey) (body : Value) :
    (QueryRoot.ofNamed kind body : QueryRoot C).KeysApart where
  named hm := h (List.mem_singleton.1 hm).symm
  bool hb := by cases hb

theorem matchAll : (QueryRoot.matchAll : QueryRoot C).KeysApart := ofNamed (by decide) _

/-- Edits of the bool query that keep its keys apart keep those of the root apart. -/
theorem editBool (h : q.KeysApart) {f : BoolQuery C → BoolQuery C}
    (hf : ∀ b, b.KeysApart → (f b).KeysApart) : (q.editBool raw f).KeysApart where
  named := h.named
  bool hb := by
    obtain rfl := Option.some.inj hb
    refine hf _ ?_
    rw [ensuredBool]
    rcases hq : q.bool with _ | b
    · exact BoolQuery.KeysApart.empty.installAll
    · exact (h.bool hq).installAll

theorem map (h : q.KeysApart) (f : C → D) : (q.map f).KeysApart where
  named := h.named
  bool hb := by
    obtain ⟨b, hq, rfl⟩ := Option.map_eq_some_iff.1 hb
    exact (h.bool hq).map f

/-- The finalizer keeps the keys apart. -/
theorem finalized (h : q.KeysApart) : q.finalized.KeysApart := by
  obtain ⟨bool, named⟩ := q
  rcases bool with _ | b
  · exact h
  · rw [QueryRoot.finalized]
    by_cases he : b.prune.isEmpty = true
    · simp only [if_pos he]
      exact .matchAll
    · simp only [if_neg he]
      refine ⟨h.named, fun hb => ?_⟩
      obtain rfl := Option.some.inj hb
      exact (h.bool rfl).prune

/-- The keys of an adopted query stay apart if the raw one is well formed. -/
theorem of_adopt {v : Value} (hw : v.wellFormed = true) (h : adopt raw v = .ok q) :
    q.KeysApart := by
  obtain ⟨members, rfl, ⟨hf, rfl⟩ | ⟨body, b, hf, ha, rfl⟩⟩ := adopt_eq_ok_iff.1 h
  · exact ⟨Object.find?_eq_none_iff.1 hf, fun hb => by cases hb⟩
  · refine ⟨fun hm => (Object.mem_keys_erase.1 hm).2 rfl, fun hb => ?_⟩
    obtain rfl := Option.some.inj hb
    exact .of_adopt (Object.wellFormed_of_find? hw hf) ha

end KeysApart

/-- **Keys stay apart**, in every query that builders come to. -/
theorem Reached.keysApart {config : Config} {q : QueryRoot Clause}
    (h : q.Reached config fun v => v.wellFormed = true) : q.KeysApart := by
  induction h with
  | wrapper => exact .wrapper
  | matchAll => exact .matchAll
  | adopt hv ha => exact .of_adopt hv ha
  | wrap w hw hq ih => exact .ofNamed w.kind_ne_boolKey _
  | install hq ih => exact ih.editBool fun b hb => hb
  | setMinimum count hq ih => exact ih.editBool fun b hb => hb.setMinimum _
  | clause hc hq ih => exact ih.editBool fun b hb => hb.append _ _
  | merge hs hsub hq ihsub ih => exact ih.editBool fun b hb => hb.append _ _
  | embed hl hsub hq ihsub ih => exact ih.editBool fun b hb => hb.append _ _

end QueryRoot

end SearchRequest

import Mathlib.Data.List.Nodup
import SearchRequest.Json.Value

/-!
# Objects with distinct keys

`Object` is a plain list of members, so a list with a repeated key is an `Object` too. JSON has no
such objects, and what is read from text has none, see `Value.wellFormed_of_parse`.

* `Value.wellFormed` — no object inside the value has a key twice. The arguments of a caller are
  values of this kind.
* `Object.foldl_insert` — members with new keys, written one after the other, stand behind the
  others in the order of writing. Written objects are made in this way, so the lemma says what they
  look like as lists.
-/

namespace SearchRequest

/-! ## Well-formed values -/

namespace Value

mutual

/-- No object in the value, at whatever depth, has a key twice. -/
def wellFormed : Value → Bool
  | .arr items => wellFormedItems items
  | .obj members => decide (members.map Prod.fst).Nodup && wellFormedMembers members
  | _ => true
termination_by structural v => v

/-- All items are well formed. -/
def wellFormedItems : List Value → Bool
  | [] => true
  | v :: rest => v.wellFormed && wellFormedItems rest
termination_by structural vs => vs

/-- The values of all members are well formed. -/
def wellFormedMembers : List (String × Value) → Bool
  | [] => true
  | (_, v) :: rest => v.wellFormed && wellFormedMembers rest
termination_by structural ms => ms

end

theorem wellFormedItems_iff {items : List Value} :
    wellFormedItems items = true ↔ ∀ v ∈ items, v.wellFormed = true := by
  induction items with
  | nil => simp [wellFormedItems]
  | cons v rest ih => simp [wellFormedItems, ih]

theorem wellFormedMembers_iff {members : List (String × Value)} :
    wellFormedMembers members = true ↔ ∀ m ∈ members, m.2.wellFormed = true := by
  induction members with
  | nil => simp [wellFormedMembers]
  | cons m rest ih => simp [wellFormedMembers, ih]

/-- An object is well formed when its keys are distinct and its values are well formed. -/
theorem wellFormed_obj {members : Object} :
    (Value.obj members).wellFormed = true ↔
      members.keys.Nodup ∧ ∀ m ∈ members, m.2.wellFormed = true := by
  rw [wellFormed, Bool.and_eq_true, decide_eq_true_iff, wellFormedMembers_iff, Object.keys]

theorem wellFormed_arr {items : List Value} :
    (Value.arr items).wellFormed = true ↔ ∀ v ∈ items, v.wellFormed = true := by
  rw [wellFormed, wellFormedItems_iff]

end Value

/-! ## Looking up and writing -/

namespace Object

/-- What is found under a key is the value of a member. -/
theorem mem_of_find? {members : Object} {key : String} {v : Value}
    (h : members.find? key = some v) : (key, v) ∈ members := by
  induction members with
  | nil => cases h
  | cons m rest ih =>
    obtain ⟨k, w⟩ := m
    rw [find?_cons] at h
    by_cases hk : k = key
    · rw [if_pos hk] at h
      obtain rfl := Option.some.inj h
      rw [hk]
      exact List.mem_cons_self
    · rw [if_neg hk] at h
      exact List.mem_cons_of_mem _ (ih h)

/-- In an object with distinct keys every member is found under its key. -/
theorem find?_of_mem {members : Object} (hn : members.keys.Nodup) {key : String} {v : Value}
    (h : (key, v) ∈ members) : members.find? key = some v := by
  induction members with
  | nil => cases h
  | cons m rest ih =>
    obtain ⟨k, w⟩ := m
    rw [keys_cons, List.nodup_cons] at hn
    rw [find?_cons]
    rcases List.mem_cons.1 h with hm | hm
    · obtain ⟨rfl, rfl⟩ := Prod.mk.inj hm
      rw [if_pos rfl]
    · have hmem : key ∈ keys rest := List.mem_map_of_mem (f := Prod.fst) hm
      rw [if_neg (fun hk : k = key => hn.1 (hk ▸ hmem))]
      exact ih hn.2 hm

/-- The values of a well-formed object are well formed. -/
theorem wellFormed_of_find? {members : Object} {key : String} {v : Value}
    (hw : (Value.obj members).wellFormed = true) (h : members.find? key = some v) :
    v.wellFormed = true :=
  (Value.wellFormed_obj.1 hw).2 _ (mem_of_find? h)

theorem keys_append (a b : Object) : keys (a ++ b) = keys a ++ keys b := List.map_append

/-- Writing keeps keys distinct. -/
theorem nodup_keys_insert {members : Object} (hn : members.keys.Nodup) (key : String)
    (value : Value) : (members.insert key value).keys.Nodup := by
  rw [keys_insert]
  by_cases h : key ∈ members.keys
  · rw [if_pos h]
    exact hn
  · rw [if_neg h, List.nodup_append]
    refine ⟨hn, List.nodup_singleton key, ?_⟩
    intro k hk k' hk' he
    rw [List.mem_singleton.1 hk'] at he
    exact h (he ▸ hk)

/-- Writing adds no key but its own. -/
theorem mem_keys_insert {members : Object} {key other : String} {value : Value} :
    other ∈ (members.insert key value).keys ↔ other = key ∨ other ∈ members.keys := by
  rw [keys_insert]
  by_cases h : key ∈ members.keys
  · rw [if_pos h]
    exact ⟨.inr, fun ho => ho.elim (fun he => he ▸ h) id⟩
  · rw [if_neg h, List.mem_append, List.mem_singleton, or_comm]

/-- A member of what is written was there before, or is the one written. -/
theorem mem_insert {members : Object} {key : String} {v : Value} {m : String × Value}
    (h : m ∈ members.insert key v) : m ∈ members ∨ m = (key, v) := by
  induction members with
  | nil => exact .inr (List.mem_singleton.1 h)
  | cons first rest ih =>
    obtain ⟨k, w⟩ := first
    rw [insert] at h
    by_cases hk : k = key
    · rw [if_pos hk, List.mem_cons] at h
      rcases h with rfl | h
      · exact .inr (by rw [hk])
      · exact .inl (List.mem_cons_of_mem _ h)
    · rw [if_neg hk, List.mem_cons] at h
      rcases h with rfl | h
      · exact .inl List.mem_cons_self
      · exact (ih h).imp_left (List.mem_cons_of_mem _)

/-- What all values of an object have, they have after one more with it is written. -/
theorem forall_mem_insert {P : Value → Prop} {members : Object} (h : ∀ m ∈ members, P m.2)
    (key : String) {v : Value} (hv : P v) : ∀ m ∈ members.insert key v, P m.2 := by
  intro m hm
  rcases mem_insert hm with hm | rfl
  · exact h m hm
  · exact hv

/-- Members with new keys, written in a row, stand behind the others in their order. -/
theorem foldl_insert {base new : Object} (hn : new.keys.Nodup)
    (hd : ∀ k ∈ new.keys, k ∉ base.keys) :
    new.foldl (fun done m => done.insert m.1 m.2) base = base ++ new := by
  induction new generalizing base with
  | nil => exact (List.append_nil base).symm
  | cons m rest ih =>
    obtain ⟨k, v⟩ := m
    rw [keys_cons, List.nodup_cons] at hn
    have hk : k ∉ base.keys := hd k List.mem_cons_self
    rw [List.foldl_cons, insert_of_not_mem v hk, ih hn.2, List.append_assoc, List.singleton_append]
    intro k' hk'
    rw [keys_append, List.mem_append, keys_cons, keys_nil, List.mem_singleton, not_or]
    refine ⟨hd k' (List.mem_cons_of_mem _ hk'), ?_⟩
    rintro rfl
    exact hn.1 hk'

/-! ## Removing -/

/-- Only the removed key is gone. -/
theorem keys_erase (members : Object) (key : String) :
    (members.erase key).keys = members.keys.filter (· ≠ key) := by
  induction members with
  | nil => rfl
  | cons m rest ih =>
    obtain ⟨k, v⟩ := m
    by_cases hk : k = key <;> simp [erase, hk, ih]

theorem mem_keys_erase {members : Object} {key other : String} :
    other ∈ (members.erase key).keys ↔ other ∈ members.keys ∧ other ≠ key := by
  simp [keys_erase]

/-- Removing keeps keys distinct. -/
theorem nodup_keys_erase {members : Object} (hn : members.keys.Nodup) (key : String) :
    (members.erase key).keys.Nodup := by
  rw [keys_erase]
  exact hn.filter _

/-- What is left was there before. -/
theorem mem_of_mem_erase {members : Object} {key : String} {m : String × Value}
    (h : m ∈ members.erase key) : m ∈ members := by
  induction members with
  | nil => cases h
  | cons first rest ih =>
    obtain ⟨k, w⟩ := first
    rw [erase] at h
    by_cases hk : k = key
    · rw [if_pos hk] at h
      exact List.mem_cons_of_mem _ (ih h)
    · rw [if_neg hk, List.mem_cons] at h
      exact List.mem_cons.2 (h.imp_right ih)

/-- Removing an absent key changes nothing. -/
theorem erase_of_not_mem {members : Object} {key : String} (h : key ∉ members.keys) :
    members.erase key = members := by
  induction members with
  | nil => rfl
  | cons m rest ih =>
    obtain ⟨k, v⟩ := m
    rw [keys_cons, List.mem_cons, not_or] at h
    rw [erase, if_neg (Ne.symm h.1), ih h.2]

/-- Writing under a new key and removing that key again changes nothing. -/
theorem erase_insert_of_not_mem {members : Object} {key : String} (value : Value)
    (h : key ∉ members.keys) : (members.insert key value).erase key = members := by
  induction members with
  | nil => simp [insert, erase]
  | cons m rest ih =>
    obtain ⟨k, v⟩ := m
    rw [keys_cons, List.mem_cons, not_or] at h
    rw [insert, if_neg (Ne.symm h.1), erase, if_neg (Ne.symm h.1), ih h.2]

end Object

end SearchRequest

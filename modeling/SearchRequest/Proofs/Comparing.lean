import Mathlib.Data.List.Forall2
import Mathlib.Data.List.Perm.Subperm
import SearchRequest.Proofs.Lookup

/-!
# Comparing written values

Two JSON values can be compared as data, with the order of members, or by `Value.same`, without it.
Either way values are compared part by part, which is all that matters where written values are told
apart: `Value.ByParts` says what this means.

* `Value.ByParts.eq`, `Value.ByParts.same` — the two ways to compare.
* `Value.ByParts.record_iff` — records of the same fields are compared field by field. It makes no
  difference whether a field is compared before or after the absent ones are left out.
-/

namespace SearchRequest

/-! ## Relations item by item -/

section Relations

variable {α β γ δ : Type} {R R' : α → β → Prop}

theorem optionRel_eq_iff {a b : Option α} : Option.Rel (· = ·) a b ↔ a = b := by
  constructor
  · rintro (h | _)
    · rw [h]
    · rfl
  · rintro rfl
    rcases a with _ | a
    · exact .none
    · exact .some rfl

theorem optionRel_map_iff {Q : γ → δ → Prop} {f : α → γ} {g : β → δ} {a : Option α}
    {b : Option β} :
    Option.Rel Q (a.map f) (b.map g) ↔ Option.Rel (fun a b => Q (f a) (g b)) a b := by
  rcases a with _ | a <;> rcases b with _ | b
  · exact ⟨fun _ => .none, fun _ => .none⟩
  · constructor <;> nofun
  · constructor <;> nofun
  · rw [Option.map_some, Option.map_some, Option.rel_some_some, Option.rel_some_some]

/-- Only what is there has to be looked at. -/
theorem optionRel_congr {a : Option α} {b : Option β}
    (h : ∀ x y, a = some x → b = some y → (R x y ↔ R' x y)) :
    Option.Rel R a b ↔ Option.Rel R' a b := by
  rcases a with _ | a <;> rcases b with _ | b
  · exact ⟨fun _ => .none, fun _ => .none⟩
  · constructor <;> nofun
  · constructor <;> nofun
  · rw [Option.rel_some_some, Option.rel_some_some, h a b rfl rfl]

@[inherit_doc optionRel_congr]
theorem forall₂_congr_mem {as : List α} {bs : List β}
    (h : ∀ x ∈ as, ∀ y ∈ bs, (R x y ↔ R' x y)) :
    List.Forall₂ R as bs ↔ List.Forall₂ R' as bs := by
  rw [List.forall₂_iff_get, List.forall₂_iff_get]
  refine and_congr_right fun _ => forall₃_congr fun i hi hi' => ?_
  exact h _ (List.get_mem _ _) _ (List.get_mem _ _)

end Relations

/-! ## Comparing part by part -/

/-- A comparison of values, with one of floating numbers, that goes by the parts of a value. -/
structure Value.ByParts (S : Value → Value → Prop) (D : Double → Double → Prop) : Prop where
  str_iff {s t : String} : S (.str s) (.str t) ↔ s = t
  int_iff {m n : Int} : S (.int m) (.int n) ↔ m = n
  float_iff {x y : Double} : S (.float x) (.float y) ↔ D x y
  arr_iff {vs ws : List Value} : S (.arr vs) (.arr ws) ↔ List.Forall₂ S vs ws
  /-- what is found in one object is found in the other -/
  find_of_obj {a b : Object} (ha : a.keys.Nodup) (hb : b.keys.Nodup) (h : S (.obj a) (.obj b))
    (key : String) : Option.Rel S (a.find? key) (b.find? key)
  /-- objects with the keys in one order are compared key by key -/
  obj_of_find {a b : Object} (hk : a.keys = b.keys) (ha : a.keys.Nodup)
    (h : ∀ key, Option.Rel S (a.find? key) (b.find? key)) : S (.obj a) (.obj b)

/-! ## Two ways to compare -/

/-- Objects with the keys in one order are equal when the same is found in both. -/
theorem Object.ext_find {a b : Object} (hk : a.keys = b.keys) (ha : a.keys.Nodup)
    (h : ∀ key, a.find? key = b.find? key) : a = b := by
  refine List.ext_getElem ?_ fun i hi hi' => ?_
  · simpa [keys] using congrArg List.length hk
  · have hkey : a[i].1 = b[i].1 := by
      simpa [keys] using List.getElem_of_eq hk (i := i) (by simpa [keys] using hi)
    have hvalue : some a[i].2 = some b[i].2 := by
      have hfa : a.find? a[i].1 = some a[i].2 := find?_of_mem ha (List.getElem_mem hi)
      have hfb : b.find? b[i].1 = some b[i].2 := find?_of_mem (hk ▸ ha) (List.getElem_mem hi')
      rw [← hfa, h, hkey, hfb]
    exact Prod.ext hkey (Option.some.inj hvalue)

namespace Value

/-- Values as data. -/
theorem ByParts.eq : ByParts (· = ·) (· = ·) where
  str_iff := ⟨Value.str.inj, congrArg _⟩
  int_iff := ⟨Value.int.inj, congrArg _⟩
  float_iff := ⟨Value.float.inj, congrArg _⟩
  arr_iff {vs ws} := by rw [arr.injEq, List.forall₂_eq_eq_eq]
  find_of_obj _ _ h key := by
    obtain rfl := Value.obj.inj h
    exact optionRel_eq_iff.2 rfl
  obj_of_find hk ha h := congrArg _ (Object.ext_find hk ha fun key => optionRel_eq_iff.1 (h key))

theorem sameItems_iff {vs ws : List Value} :
    sameItems vs ws = true ↔ List.Forall₂ (fun v w => v.same w = true) vs ws := by
  induction vs generalizing ws with
  | nil => cases ws <;> simp [sameItems]
  | cons v rest ih => cases ws <;> simp [sameItems, ih]

theorem sameMembers_iff {a b : Object} :
    sameMembers a b = true ↔
      ∀ m ∈ a, ∃ w, b.find? m.1 = some w ∧ m.2.same w = true := by
  induction a with
  | nil => simp [sameMembers]
  | cons m rest ih =>
    obtain ⟨k, v⟩ := m
    rw [sameMembers, Bool.and_eq_true, ih, List.forall_mem_cons]
    rcases b.find? k with _ | w <;> simp

theorem same_obj_iff {a b : Object} :
    (obj a).same (obj b) = true ↔ a.length = b.length ∧
      ∀ m ∈ a, ∃ w, b.find? m.1 = some w ∧ m.2.same w = true := by
  rw [same, Bool.and_eq_true, beq_iff_eq, sameMembers_iff]

/-- Values up to the order of members. -/
theorem ByParts.same : ByParts (fun v w => v.same w = true) (fun x y => x.same y = true) where
  str_iff := beq_iff_eq
  int_iff := beq_iff_eq
  float_iff := .rfl
  arr_iff := sameItems_iff
  find_of_obj {a b} ha hb h key := by
    obtain ⟨hlen, hfind⟩ := same_obj_iff.1 h
    rcases hf : a.find? key with _ | v
    · -- the keys of the one are among those of the other, and they are as many
      have hsub : a.keys ⊆ b.keys := by
        intro k hk
        obtain ⟨m, hm, rfl⟩ := List.mem_map.1 hk
        obtain ⟨w, hw, -⟩ := hfind m hm
        by_contra hn
        rw [Object.find?_eq_none_iff.2 hn] at hw
        cases hw
      have hperm : a.keys.Perm b.keys := by
        refine (List.subperm_of_subset ha hsub).perm_of_length_le (Nat.le_of_eq ?_)
        rw [Object.keys, Object.keys, List.length_map, List.length_map, hlen]
      have hb : b.find? key = none := by
        rw [Object.find?_eq_none_iff, ← hperm.mem_iff, ← Object.find?_eq_none_iff, hf]
      rw [hb]
      exact .none
    · obtain ⟨w, hw, hs⟩ := hfind _ (Object.mem_of_find? hf)
      rw [hw]
      exact .some hs
  obj_of_find {a b} hk ha h := by
    refine same_obj_iff.2 ⟨by simpa [Object.keys] using congrArg List.length hk, fun m hm => ?_⟩
    have hm' := h m.1
    rw [Object.find?_of_mem (v := m.2) ha hm] at hm'
    rcases hf : b.find? m.1 with _ | w
    · rw [hf] at hm'
      cases hm'
    · rw [hf] at hm'
      cases hm' with
      | some hs => exact ⟨w, rfl, hs⟩

/-! ## Parts of written values -/

section Fields

variable {S : Value → Value → Prop} {fields others : List (String × Option Value)}

/-- Where fields agree one by one, the same ones are present. -/
theorem keys_present_eq (hk : fields.map Prod.fst = others.map Prod.fst)
    (hs : List.Forall₂ (fun f o => Option.Rel S f.2 o.2) fields others) :
    (present fields).keys = (present others).keys := by
  induction hs with
  | nil => rfl
  | @cons f o fs os hfo _ ih =>
    obtain ⟨k, v?⟩ := f
    obtain ⟨k', w?⟩ := o
    obtain ⟨hkey, htail⟩ := List.cons.inj hk
    obtain rfl : k = k' := hkey
    cases hfo with
    | none => exact ih htail
    | some => exact congrArg (k :: ·) (ih htail)

/-- Where fields agree one by one, what is found under a key agrees. -/
theorem find?_present_rel (hk : fields.map Prod.fst = others.map Prod.fst)
    (hs : List.Forall₂ (fun f o => Option.Rel S f.2 o.2) fields others) (key : String) :
    Option.Rel S ((present fields).find? key) ((present others).find? key) := by
  induction hs with
  | nil => exact .none
  | @cons f o fs os hfo _ ih =>
    obtain ⟨k, v?⟩ := f
    obtain ⟨k', w?⟩ := o
    obtain ⟨hkey, htail⟩ := List.cons.inj hk
    obtain rfl : k = k' := hkey
    cases hfo with
    | none => exact ih htail
    | @some v w hvw =>
      rw [present_cons_some, present_cons_some, Object.find?_cons, Object.find?_cons]
      by_cases hkey : k = key
      · rw [if_pos hkey, if_pos hkey]
        exact .some hvw
      · rw [if_neg hkey, if_neg hkey]
        exact ih htail

end Fields

namespace ByParts

variable {S : Value → Value → Prop} {D : Double → Double → Prop} (h : ByParts S D)
include h

/-- Objects that agree have the same keys. -/
theorem mem_keys_iff {a b : Object} (ha : a.keys.Nodup) (hb : b.keys.Nodup)
    (hs : S (obj a) (obj b)) (key : String) : key ∈ a.keys ↔ key ∈ b.keys := by
  have hrel := h.find_of_obj ha hb hs key
  rw [← not_iff_not, ← Object.find?_eq_none_iff, ← Object.find?_eq_none_iff]
  generalize a.find? key = v?, b.find? key = w? at hrel
  cases hrel with
  | none => exact ⟨id, id⟩
  | some => exact ⟨nofun, nofun⟩

theorem nat_iff {m n : Nat} : S (nat m) (nat n) ↔ m = n := h.int_iff.trans Int.natCast_inj

theorem ofDouble_iff {x y : Double} (hx : x.isFinite = true) (hy : y.isFinite = true) :
    S (ofDouble x) (ofDouble y) ↔ D x y := by
  rw [ofDouble, ofDouble, if_pos hx, if_pos hy, h.float_iff]

theorem strings_iff {xs ys : List String} : S (strings xs) (strings ys) ↔ xs = ys := by
  rw [strings, strings, h.arr_iff, List.forall₂_map_left_iff, List.forall₂_map_right_iff]
  simp only [h.str_iff, List.forall₂_eq_eq_eq]

/-- **Records are compared field by field.** -/
theorem record_iff {fields others : List (String × Option Value)}
    (hk : fields.map Prod.fst = others.map Prod.fst) (hn : (fields.map Prod.fst).Nodup) :
    S (record fields) (record others) ↔
      List.Forall₂ (fun f o => Option.Rel S f.2 o.2) fields others := by
  have hnf : (present fields).keys.Nodup := (keys_present_sublist fields).nodup hn
  have hno : (present others).keys.Nodup := (keys_present_sublist others).nodup (hk ▸ hn)
  constructor
  · intro hs
    refine List.forall₂_iff_get.2 ⟨by simpa using congrArg List.length hk, fun i hi hi' => ?_⟩
    have hkey : fields[i].1 = others[i].1 := by
      rw [← List.getElem_map Prod.fst (h := by simpa using hi), List.getElem_of_eq hk,
        List.getElem_map]
    have hfield : (present fields).find? fields[i].1 = fields[i].2 :=
      find?_present hn (List.getElem_mem hi)
    have hother : (present others).find? others[i].1 = others[i].2 :=
      find?_present (hk ▸ hn) (List.getElem_mem hi')
    have hrel := h.find_of_obj hnf hno hs fields[i].1
    rw [hfield, hkey, hother] at hrel
    exact hrel
  · intro hs
    exact h.obj_of_find (keys_present_eq hk hs) hnf (find?_present_rel hk hs)

/-- Objects with one member. -/
theorem single_iff {k k' : String} {v v' : Value} :
    S (single k v) (single k' v') ↔ k = k' ∧ S v v' := by
  constructor
  · intro hs
    have hrel := h.find_of_obj (a := [(k, v)]) (b := [(k', v')]) (List.nodup_singleton k)
      (List.nodup_singleton k') hs k
    by_cases hk : k' = k
    · subst hk
      simp only [Object.find?_cons, if_pos] at hrel
      cases hrel with
      | some hv => exact ⟨rfl, hv⟩
    · simp only [Object.find?_cons, if_pos, if_neg hk] at hrel
      cases hrel
  · rintro ⟨rfl, hv⟩
    have hfields : List.Forall₂ (fun f o => Option.Rel S f.2 o.2) [(k, some v)] [(k, some v')] :=
      .cons (.some hv) .nil
    refine (h.record_iff ?_ ?_).2 hfields
    · rfl
    · exact List.nodup_singleton k

/-- Objects with one member, under the same key. -/
theorem inside_iff {key : String} {v w : Value} : S (single key v) (single key w) ↔ S v w :=
  h.single_iff.trans (and_iff_right rfl)

/-- Objects with the same two keys. -/
theorem pair_iff {k l : String} {v v' w w' : Value} (hkl : k ≠ l) :
    S (obj [(k, v), (l, w)]) (obj [(k, v'), (l, w')]) ↔ S v v' ∧ S w w' := by
  change S (record [(k, some v), (l, some w)]) (record [(k, some v'), (l, some w')]) ↔ _
  rw [h.record_iff]
  · simp
  · rfl
  · change [k, l].Nodup
    rw [List.nodup_cons, List.mem_singleton]
    exact ⟨hkl, List.nodup_singleton l⟩

end ByParts

end Value

end SearchRequest

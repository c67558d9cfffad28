import SearchRequest.Proofs.ClauseRules

/-!
# The rules of range specifications

The check of a range specification filters its keys, then looks whether there are any, and then goes
through the two sides of a range. Here the rules are stated without this order and by the keys
alone: a specification is an object of known keys, not empty, without two bounds for one side.

* `IsRange` — the rules that a specification follows.
* `RangeFault` — what is wrong with the others. `Argument.range_eq_error_iff` says that every
  rejection comes from there.
* `Argument.range_decided_by_keys` — which specifications pass, under which code each of the others
  is rejected, and that neither the order of the keys nor the values under them matter for that.
-/

namespace SearchRequest

open Argument

/-! ## The rules -/

/-- The keys that are known: two bounds for each side, and a boost. -/
def IsRangeKey (key : String) : Prop := key ∈ ["gte", "gt", "lte", "lt", "boost"]

/-- The object has both keys. -/
def HasBoth (members : Object) (a b : String) : Prop := a ∈ members.keys ∧ b ∈ members.keys

instance (members : Object) (a b : String) : Decidable (HasBoth members a b) := instDecidableAnd

/-- The members are those of a range specification. -/
structure IsRange (bounds : Object) : Prop where
  nonempty : bounds ≠ []
  known : ∀ key ∈ bounds.keys, IsRangeKey key
  below : ¬ HasBoth bounds "gte" "gt"
  above : ¬ HasBoth bounds "lte" "lt"

/-- What is wrong with a range specification. -/
inductive RangeFault : Value → Fault → Prop where
  | notObject {spec : Value} (h : spec.isObject = false) : RangeFault spec .rangeNotObject
  | unknown {bounds : Object} (h : ¬ ∀ key ∈ bounds.keys, IsRangeKey key) :
    RangeFault (.obj bounds) (.rangeKeysUnknown (unknownRangeKeys bounds))
  | empty : RangeFault (.obj []) .rangeEmpty
  | below {bounds : Object} (hknown : ∀ key ∈ bounds.keys, IsRangeKey key)
    (h : HasBoth bounds "gte" "gt") : RangeFault (.obj bounds) (.rangeBoundsConflict "gte" "gt")
  | above {bounds : Object} (hknown : ∀ key ∈ bounds.keys, IsRangeKey key)
    (hbelow : ¬ HasBoth bounds "gte" "gt") (h : HasBoth bounds "lte" "lt") :
    RangeFault (.obj bounds) (.rangeBoundsConflict "lte" "lt")

/-! ## The check -/

theorem Object.contains_iff {members : Object} {key : String} :
    members.contains key = true ↔ key ∈ members.keys := by
  rw [contains, Option.isSome_iff_ne_none, ne_eq, find?_eq_none_iff, not_not]

namespace Argument

theorem isEmpty_unknownRangeKeys_iff {bounds : Object} :
    (unknownRangeKeys bounds).isEmpty = true ↔ ∀ key ∈ bounds.keys, IsRangeKey key := by
  rw [unknownRangeKeys, List.isEmpty_iff, List.filter_eq_nil_iff]
  refine forall₂_congr fun key _ => ?_
  rw [Bool.not_eq_true', Bool.not_eq_false, List.contains_iff_mem]
  exact Iff.rfl

theorem doubledSide?_eq (bounds : Object) :
    doubledSide? bounds =
      if HasBoth bounds "gte" "gt" then some ("gte", "gt")
      else if HasBoth bounds "lte" "lt" then some ("lte", "lt") else none := by
  have hside (a b : String) :
      (bounds.contains a && bounds.contains b) = decide (HasBoth bounds a b) := by
    rw [Bool.eq_iff_iff, Bool.and_eq_true, decide_eq_true_iff, Object.contains_iff,
      Object.contains_iff, HasBoth]
  rw [doubledSide?, rangeSides, List.find?_cons, List.find?_cons, List.find?_nil, hside, hside]
  by_cases hbelow : HasBoth bounds "gte" "gt"
  · simp only [hbelow, decide_true, if_true]
  · by_cases habove : HasBoth bounds "lte" "lt" <;>
      simp only [hbelow, habove, decide_true, decide_false, if_true, if_false]

/-- **Specifications that pass**, as they were given. -/
theorem range_eq_ok_iff_isRange {spec : Value} {field context : String} {bounds : Object} :
    range spec field context = .ok bounds ↔ spec = .obj bounds ∧ IsRange bounds := by
  rw [range_eq_ok_iff, isEmpty_unknownRangeKeys_iff, List.isEmpty_eq_false_iff, doubledSide?_eq]
  refine and_congr_right fun _ => ⟨?_, fun h => ?_⟩
  · rintro ⟨hknown, hne, hsides⟩
    split_ifs at hsides with hbelow habove
    exact ⟨hne, hknown, hbelow, habove⟩
  · rw [if_neg h.below, if_neg h.above]
    exact ⟨h.known, h.nonempty, rfl⟩

/-- Of known keys, one at least, only the sides are left to look at. -/
theorem range_of_known {bounds : Object} (hknown : ∀ key ∈ bounds.keys, IsRangeKey key)
    (hne : bounds ≠ []) (field context : String) :
    range (.obj bounds) field context =
      if HasBoth bounds "gte" "gt" then
        .error ((Fault.rangeBoundsConflict "gte" "gt").reject field context)
      else if HasBoth bounds "lte" "lt" then
        .error ((Fault.rangeBoundsConflict "lte" "lt").reject field context)
      else .ok bounds := by
  have hunknown : (unknownRangeKeys bounds).isEmpty = true :=
    isEmpty_unknownRangeKeys_iff.2 hknown
  have hempty : (!bounds.isEmpty) = true := by rw [List.isEmpty_eq_false_iff.2 hne, Bool.not_false]
  simp only [range, require, hunknown, hempty, if_true, doubledSide?_eq]
  by_cases hbelow : HasBoth bounds "gte" "gt"
  · rw [if_pos hbelow, if_pos hbelow]
    rfl
  · by_cases habove : HasBoth bounds "lte" "lt"
    · rw [if_neg hbelow, if_neg hbelow, if_pos habove, if_pos habove]
      rfl
    · rw [if_neg hbelow, if_neg hbelow, if_neg habove, if_neg habove]
      rfl

/-- **Specifications that are rejected**: what is wrong with them, reported for the field. -/
theorem range_eq_error_iff {spec : Value} {field context : String} {r : Rejection} :
    range spec field context = .error r ↔
      ∃ fault, RangeFault spec fault ∧ fault.reject field context = r := by
  constructor
  · intro h
    cases spec with
    | obj bounds =>
      by_cases hknown : ∀ key ∈ Object.keys bounds, IsRangeKey key
      · by_cases hne : bounds = []
        · subst hne
          exact ⟨_, .empty, Except.error.inj h⟩
        · rw [range_of_known hknown hne] at h
          split_ifs at h with hbelow habove
          · exact ⟨_, .below hknown hbelow, Except.error.inj h⟩
          · exact ⟨_, .above hknown hbelow habove, Except.error.inj h⟩
      · rcases Checked.bind_eq_error_iff.1 h with hunknown | ⟨_, hpass, -⟩
        · exact ⟨_, .unknown hknown, (require_eq_error_iff.1 hunknown).2⟩
        · exact absurd (isEmpty_unknownRangeKeys_iff.1 (require_eq_ok_iff.1 hpass)) hknown
    | _ => exact ⟨_, .notObject rfl, Except.error.inj h⟩
  · have hne {bounds : Object} {a b : String} (h : HasBoth bounds a b) : bounds ≠ [] := by
      rintro rfl
      cases h.1
    rintro ⟨fault, hfault, rfl⟩
    cases hfault with
    | notObject h =>
      cases spec with
      | obj => cases h
      | _ => rfl
    | unknown h =>
      refine Checked.bind_eq_error_iff.2 (.inl (require_eq_error_iff.2 ⟨?_, rfl⟩))
      exact Bool.eq_false_iff.2 (mt isEmpty_unknownRangeKeys_iff.1 h)
    | empty => rfl
    | below hknown h => rw [range_of_known hknown (hne h), if_pos h]
    | above hknown hbelow h => rw [range_of_known hknown (hne h), if_neg hbelow, if_pos h]

end Argument

/-! ## What decides -/

/-- The code that a check is rejected under, if it is rejected. -/
def Checked.code? {α : Type} : Checked α → Option ErrorCode
  | .ok _ => none
  | .error r => some r.code

theorem Checked.code?_eq_some_iff {α : Type} {x : Checked α} {code : ErrorCode} :
    x.code? = some code ↔ ∃ r, x = .error r ∧ r.code = code := by
  cases x with
  | error r => simp [code?]
  | ok a => simp [code?]

namespace RangeFault

variable {spec : Value}

theorem exists_invalidRangeType_iff :
    (∃ fault, RangeFault spec fault ∧ fault.code = .invalidRangeType) ↔ spec.isObject = false := by
  constructor
  · rintro ⟨_, h, hc⟩
    cases h with
    | notObject h => exact h
    | _ => cases hc
  · exact fun h => ⟨_, .notObject h, rfl⟩

theorem exists_invalidRangeKeys_iff :
    (∃ fault, RangeFault spec fault ∧ fault.code = .invalidRangeKeys) ↔
      ∃ bounds, spec = .obj bounds ∧ ∃ key ∈ Object.keys bounds, ¬ IsRangeKey key := by
  constructor
  · rintro ⟨_, h, hc⟩
    cases h with
    | unknown h =>
      push Not at h
      exact ⟨_, rfl, h⟩
    | _ => cases hc
  · rintro ⟨bounds, rfl, key, hkey, hunknown⟩
    exact ⟨_, .unknown fun h => hunknown (h key hkey), rfl⟩

theorem exists_emptyRange_iff :
    (∃ fault, RangeFault spec fault ∧ fault.code = .emptyRange) ↔ spec = .obj [] := by
  constructor
  · rintro ⟨_, h, hc⟩
    cases h with
    | empty => rfl
    | _ => cases hc
  · rintro rfl
    exact ⟨_, .empty, rfl⟩

theorem exists_conflictingRangeBounds_iff :
    (∃ fault, RangeFault spec fault ∧ fault.code = .conflictingRangeBounds) ↔
      ∃ bounds, spec = .obj bounds ∧ (∀ key ∈ Object.keys bounds, IsRangeKey key) ∧
        (HasBoth bounds "gte" "gt" ∨ HasBoth bounds "lte" "lt") := by
  constructor
  · rintro ⟨_, h, hc⟩
    cases h with
    | below hknown h => exact ⟨_, rfl, hknown, .inl h⟩
    | above hknown _ h => exact ⟨_, rfl, hknown, .inr h⟩
    | _ => cases hc
  · rintro ⟨bounds, rfl, hknown, h⟩
    by_cases hbelow : HasBoth bounds "gte" "gt"
    · exact ⟨_, .below hknown hbelow, rfl⟩
    · exact ⟨_, .above hknown hbelow (h.resolve_left hbelow), rfl⟩

/-- Objects with the same keys are at fault alike. -/
theorem of_keys {bounds other : Object} {fault : Fault}
    (h : RangeFault (.obj bounds) fault) (hkeys : ∀ key, key ∈ bounds.keys ↔ key ∈ other.keys) :
    ∃ fault', RangeFault (.obj other) fault' ∧ fault'.code = fault.code := by
  have hknown : (∀ key ∈ bounds.keys, IsRangeKey key) ↔ ∀ key ∈ other.keys, IsRangeKey key :=
    forall_congr' fun key => imp_congr_left (hkeys key)
  have hboth (a b : String) : HasBoth bounds a b ↔ HasBoth other a b :=
    and_congr (hkeys a) (hkeys b)
  cases h with
  | notObject h => cases h
  | unknown h => exact ⟨_, .unknown (mt hknown.2 h), rfl⟩
  | empty =>
    have hnil : other = [] := by
      rcases other with _ | ⟨m, rest⟩
      · rfl
      · cases (hkeys m.1).2 List.mem_cons_self
    exact ⟨_, hnil ▸ .empty, rfl⟩
  | below h h' => exact ⟨_, .below (hknown.1 h) ((hboth _ _).1 h'), rfl⟩
  | above h hbelow h' =>
    exact ⟨_, .above (hknown.1 h) (mt (hboth _ _).2 hbelow) ((hboth _ _).1 h'), rfl⟩

end RangeFault

namespace Argument

theorem code?_range_eq_some_iff {spec : Value} {field context : String} {code : ErrorCode} :
    (range spec field context).code? = some code ↔
      ∃ fault, RangeFault spec fault ∧ fault.code = code := by
  rw [Checked.code?_eq_some_iff]
  constructor
  · rintro ⟨r, hr, rfl⟩
    obtain ⟨fault, hfault, rfl⟩ := range_eq_error_iff.1 hr
    exact ⟨fault, hfault, rfl⟩
  · rintro ⟨fault, hfault, rfl⟩
    exact ⟨_, range_eq_error_iff.2 ⟨fault, hfault, rfl⟩, rfl⟩

/-- Whether an object passes, and the code that it is rejected under, is decided by its keys. -/
theorem code?_range_of_keys {bounds other : Object} (field context : String)
    (hkeys : ∀ key, key ∈ bounds.keys ↔ key ∈ other.keys) :
    (range (.obj bounds) field context).code? = (range (.obj other) field context).code? := by
  refine Option.ext fun code => ?_
  rw [code?_range_eq_some_iff, code?_range_eq_some_iff]
  constructor
  · rintro ⟨fault, hfault, rfl⟩
    exact hfault.of_keys hkeys
  · rintro ⟨fault, hfault, rfl⟩
    exact hfault.of_keys fun key => (hkeys key).symm

/-- **Range specifications are decided by their keys.** A specification passes, as it was given,
exactly if it is an object of known keys, not empty, without two bounds for one side. Any other is
rejected: what is no object as such, an object with an unknown key for that, whatever else it holds,
the empty object for being empty, and the rest for two bounds of one side. Objects with the same
keys, in whatever order and with whatever values, pass together or are rejected under one code. -/
theorem range_decided_by_keys (spec : Value) (field context : String) :
    let code? := (range spec field context).code?
    (∀ bounds, range spec field context = .ok bounds ↔ spec = .obj bounds ∧ IsRange bounds) ∧
      (code? = some .invalidRangeType ↔ spec.isObject = false) ∧
      (code? = some .invalidRangeKeys ↔
        ∃ bounds, spec = .obj bounds ∧ ∃ key ∈ Object.keys bounds, ¬ IsRangeKey key) ∧
      (code? = some .emptyRange ↔ spec = .obj []) ∧
      (code? = some .conflictingRangeBounds ↔
        ∃ bounds, spec = .obj bounds ∧ (∀ key ∈ Object.keys bounds, IsRangeKey key) ∧
          (HasBoth bounds "gte" "gt" ∨ HasBoth bounds "lte" "lt")) ∧
      ∀ bounds other, spec = .obj bounds →
        (∀ key, key ∈ Object.keys bounds ↔ key ∈ Object.keys other) →
          code? = (range (.obj other) field context).code? := by
  intro code?
  refine ⟨fun _ => range_eq_ok_iff_isRange,
    code?_range_eq_some_iff.trans RangeFault.exists_invalidRangeType_iff,
    code?_range_eq_some_iff.trans RangeFault.exists_invalidRangeKeys_iff,
    code?_range_eq_some_iff.trans RangeFault.exists_emptyRange_iff,
    code?_range_eq_some_iff.trans RangeFault.exists_conflictingRangeBounds_iff, ?_⟩
  rintro bounds other rfl hkeys
  exact code?_range_of_keys field context hkeys

end Argument

end SearchRequest

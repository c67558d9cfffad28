import SearchRequest.Proofs.Objects
import SearchRequest.Query.QueryRoot

/-!
# Installed sections

Every edit of clauses installs the four sections first. This file says what the installation does,
in terms of one function:

* `BoolQuery.upcoming` — the clauses that a section has, or will have once it is installed. A value
  that waits under the key of an absent section counts as its one clause.
* `BoolQuery.get_installAll`, `BoolQuery.get_append` — after an edit a section holds its upcoming
  clauses, and behind them what was appended to it.
* `BoolQuery.Each` — a property of all clauses. Installing and appending keep it, provided that
  waiting values and new clauses have it.
-/

namespace SearchRequest

namespace Section

/-- Every section is listed. -/
theorem mem_all (s : Section) : s ∈ all := by
  cases s <;> decide

/-- Different sections have different keys. -/
theorem text_ne {s t : Section} (h : s ≠ t) : s.text ≠ t.text := fun he => h (text_injective he)

end Section

namespace BoolQuery

variable {C D : Type}

/-- Bool queries agree when their sections, their bounds and their other parameters do. -/
theorem ext_get {b b' : BoolQuery C} (hs : ∀ s, b.get s = b'.get s)
    (hm : b.minimumShouldMatch = b'.minimumShouldMatch) (he : b.extra = b'.extra) : b = b' := by
  have h₁ : b.must = b'.must := hs .must
  have h₂ : b.filter = b'.filter := hs .filter
  have h₃ : b.should = b'.should := hs .should
  have h₄ : b.mustNot = b'.mustNot := hs .mustNot
  cases b
  cases b'
  subst h₁ h₂ h₃ h₄ hm he
  rfl

/-! ## Installing one section -/

/-- The clauses that a section has, or will have once it is installed. -/
def upcoming (raw : Value → C) (b : BoolQuery C) (s : Section) : List C :=
  match b.get s with
  | some cs => cs
  | none => ((b.extra.find? s.text).map raw).toList

theorem upcoming_of_get {raw : Value → C} {b : BoolQuery C} {s : Section} {cs : List C}
    (h : b.get s = some cs) : b.upcoming raw s = cs := by
  rw [upcoming, h]

theorem upcoming_of_absent {raw : Value → C} {b : BoolQuery C} {s : Section}
    (h : b.get s = none) : b.upcoming raw s = ((b.extra.find? s.text).map raw).toList := by
  rw [upcoming, h]

/-- An upcoming clause is a clause already, or a value that waits. -/
theorem mem_upcoming {raw : Value → C} {b : BoolQuery C} {s : Section} {c : C}
    (h : c ∈ b.upcoming raw s) : c ∈ b.clauses s ∨ ∃ v, c = raw v := by
  rcases hg : b.get s with _ | cs
  · rw [upcoming_of_absent hg, Option.mem_toList, Option.map_eq_some_iff] at h
    obtain ⟨v, -, rfl⟩ := h
    exact .inr ⟨v, rfl⟩
  · rw [upcoming_of_get hg] at h
    refine .inl ?_
    rw [clauses, hg]
    exact h

/-- Installing a section gives it its upcoming clauses, and leaves the others. -/
theorem get_install (raw : Value → C) (b : BoolQuery C) (s t : Section) :
    (b.install raw s).get t = if t = s then some (b.upcoming raw s) else b.get t := by
  unfold install
  rcases hg : b.get s with _ | cs
  · rw [upcoming_of_absent hg]
    rcases hf : b.extra.find? s.text with _ | v
    · by_cases h : t = s
      · rw [h, if_pos rfl]
        exact get_set_self b s _
      · rw [if_neg h]
        exact get_set_of_ne b _ h
    · by_cases h : t = s
      · rw [h, if_pos rfl]
        exact get_set_self b s _
      · rw [if_neg h]
        exact get_set_of_ne b _ h
  · rw [upcoming_of_get hg]
    by_cases h : t = s
    · rw [h, if_pos rfl]
      exact hg
    · rw [if_neg h]

/-- Installing an absent section takes its key from the other parameters. -/
theorem extra_install (raw : Value → C) (b : BoolQuery C) (s : Section) :
    (b.install raw s).extra = if b.get s = none then b.extra.erase s.text else b.extra := by
  unfold install
  rcases hg : b.get s with _ | cs
  · rw [if_pos rfl]
    rcases hf : b.extra.find? s.text with _ | v
    · rw [Object.erase_of_not_mem (Object.find?_eq_none_iff.1 hf)]
      exact extra_set b s _
    · rfl
  · rw [if_neg (Option.some_ne_none cs)]

@[simp] theorem minimumShouldMatch_install (raw : Value → C) (b : BoolQuery C) (s : Section) :
    (b.install raw s).minimumShouldMatch = b.minimumShouldMatch := by
  unfold install
  rcases b.get s with _ | cs
  · rcases b.extra.find? s.text with _ | v
    · exact minimumShouldMatch_set b s _
    · exact minimumShouldMatch_set b s _
  · rfl

/-- Installing changes no upcoming clauses. -/
theorem upcoming_install (raw : Value → C) (b : BoolQuery C) (s t : Section) :
    (b.install raw s).upcoming raw t = b.upcoming raw t := by
  by_cases h : t = s
  · have hg : (b.install raw s).get s = some (b.upcoming raw s) := by
      rw [get_install, if_pos rfl]
    rw [h, upcoming_of_get hg]
  · have hg : (b.install raw s).get t = b.get t := by
      rw [get_install, if_neg h]
    have hf : (b.install raw s).extra.find? t.text = b.extra.find? t.text := by
      rw [extra_install]
      by_cases hs : b.get s = none
      · rw [if_pos hs, Object.find?_erase_of_ne _ (Section.text_ne h)]
      · rw [if_neg hs]
    rw [upcoming, upcoming, hg, hf]

/-! ## Installing all sections -/

theorem get_foldl_install (raw : Value → C) (sections : List Section) (b : BoolQuery C)
    (t : Section) :
    (sections.foldl (install raw) b).get t =
      if t ∈ sections then some (b.upcoming raw t) else b.get t := by
  induction sections generalizing b with
  | nil => rw [if_neg List.not_mem_nil, List.foldl_nil]
  | cons s rest ih =>
    -- the first installation changes no upcoming clauses, so the rest meets those of `b`
    rw [List.foldl_cons, ih, upcoming_install, get_install]
    by_cases h : t = s
    · rw [h, if_pos rfl, if_pos List.mem_cons_self, ite_self]
    · rw [if_neg h]
      by_cases hm : t ∈ rest
      · rw [if_pos hm, if_pos (List.mem_cons_of_mem s hm)]
      · rw [if_neg hm, if_neg (fun hc => (List.mem_cons.1 hc).elim h hm)]

/-- All sections installed hold their upcoming clauses. -/
@[simp] theorem get_installAll (raw : Value → C) (b : BoolQuery C) (t : Section) :
    (b.installAll raw).get t = some (b.upcoming raw t) := by
  rw [installAll, get_foldl_install, if_pos t.mem_all]

@[simp] theorem clauses_installAll (raw : Value → C) (b : BoolQuery C) (t : Section) :
    (b.installAll raw).clauses t = b.upcoming raw t := by
  rw [clauses, get_installAll, Option.getD_some]

/-- Installed sections have no other upcoming clauses. -/
@[simp] theorem upcoming_installAll (raw : Value → C) (b : BoolQuery C) (t : Section) :
    (b.installAll raw).upcoming raw t = b.upcoming raw t :=
  upcoming_of_get (get_installAll raw b t)

/-- Adding clauses to one section leaves the others. -/
theorem get_append (raw : Value → C) (b : BoolQuery C) (s t : Section) (cs : List C) :
    (b.append raw s cs).get t = if t = s then some (b.upcoming raw s ++ cs) else b.get t := by
  have hc : (b.install raw s).clauses s = b.upcoming raw s := by
    rw [clauses, get_install, if_pos rfl, Option.getD_some]
  rw [append]
  by_cases h : t = s
  · rw [h, get_set_self, if_pos rfl, hc]
  · rw [get_set_of_ne _ _ h, get_install, if_neg h, if_neg h]

/-- The finalizer loses no clause. -/
@[simp] theorem clauses_prune (b : BoolQuery C) (s : Section) :
    b.prune.clauses s = b.clauses s := by
  rw [clauses, clauses, get_prune]
  rcases b.get s with _ | _ | ⟨c, rest⟩ <;> rfl

/-- Nothing is left to drop after the first time. -/
@[simp] theorem prune_prune (b : BoolQuery C) : b.prune.prune = b.prune := by
  refine ext_get (fun s => ?_) rfl rfl
  rw [get_prune, get_prune]
  rcases b.get s with _ | _ | ⟨c, rest⟩ <;> rfl

/-! ## Properties of all clauses -/

/-- All clauses, of all four sections, have the property. -/
def Each (P : C → Prop) (b : BoolQuery C) : Prop := ∀ s, ∀ c ∈ b.clauses s, P c

namespace Each

variable {P : C → Prop} {b : BoolQuery C} {raw : Value → C}

theorem empty : ({} : BoolQuery C).Each P := by
  intro s c hc
  cases s <;> exact absurd hc List.not_mem_nil

theorem wrapper : (BoolQuery.wrapper : BoolQuery C).Each P := by
  intro s c hc
  cases s <;> exact absurd hc List.not_mem_nil

/-- The parameters beside the sections do not matter. -/
theorem congr {b' : BoolQuery C} (h : b.Each P) (hs : ∀ s, b'.get s = b.get s) : b'.Each P := by
  intro s c hc
  rw [clauses, hs s] at hc
  exact h s c hc

theorem upcoming (h : b.Each P) (hraw : ∀ v, P (raw v)) {s : Section} {c : C}
    (hc : c ∈ b.upcoming raw s) : P c := by
  rcases mem_upcoming hc with hc | ⟨v, rfl⟩
  · exact h s c hc
  · exact hraw v

theorem installAll (h : b.Each P) (hraw : ∀ v, P (raw v)) : (b.installAll raw).Each P := by
  intro s c hc
  rw [clauses_installAll] at hc
  exact h.upcoming hraw hc

theorem append (h : b.Each P) (hraw : ∀ v, P (raw v)) {s : Section} {cs : List C}
    (hcs : ∀ c ∈ cs, P c) : (b.append raw s cs).Each P := by
  intro t c hc
  rw [clauses, get_append] at hc
  by_cases ht : t = s
  · rw [if_pos ht, Option.getD_some, List.mem_append] at hc
    rcases hc with hc | hc
    · exact h.upcoming hraw hc
    · exact hcs c hc
  · rw [if_neg ht] at hc
    exact h t c hc

/-- The finalizer adds no clause. -/
theorem prune (h : b.Each P) : b.prune.Each P := by
  intro s c hc
  rw [clauses_prune] at hc
  exact h s c hc

end Each

end BoolQuery

/-! ## Query roots -/

namespace QueryRoot

variable {C : Type}

/-- A query as it is sent is sent as it is. -/
@[simp] theorem finalized_finalized (q : QueryRoot C) : q.finalized.finalized = q.finalized := by
  obtain ⟨bool, named⟩ := q
  rcases bool with _ | b
  · rfl
  · by_cases h : b.prune.isEmpty = true
    · simp only [finalized, if_pos h]
      rfl
    · simp only [finalized, if_neg h, BoolQuery.prune_prune]

/-- Change the bool query, which is installed first. -/
def editBool (raw : Value → C) (f : BoolQuery C → BoolQuery C) (q : QueryRoot C) : QueryRoot C :=
  { q with bool := some (f (q.ensuredBool raw)) }

/-- The clauses that a merge takes over. -/
def mergeable (q : QueryRoot C) : List C :=
  match q.bool with
  | some b => b.clauses .must ++ b.clauses .filter
  | none => []

end QueryRoot

end SearchRequest

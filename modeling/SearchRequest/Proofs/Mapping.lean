import SearchRequest.Document.Edit
import SearchRequest.Proofs.Sections

/-!
# Clauses of another kind

Nothing that a query does with its clauses depends on what a clause is: it installs, appends,
counts and drops empty sections in the same way whether the clauses are typed, raw or written out
as JSON. As lemmas: every operation commutes with `BoolQuery.map` and `QueryRoot.map`.

Two maps matter. `Clause.toValue` writes clauses as JSON, and a query is written by way of it.
`Clause.asRaw` forgets the kind of a clause and keeps what is written of it.
-/

namespace SearchRequest

namespace BoolQuery

variable {C D E : Type} {f : C → D}

@[simp] theorem minimumShouldMatch_map (b : BoolQuery C) :
    (b.map f).minimumShouldMatch = b.minimumShouldMatch := rfl

@[simp] theorem extra_map (b : BoolQuery C) : (b.map f).extra = b.extra := rfl

@[simp] theorem clauses_map (b : BoolQuery C) (s : Section) :
    (b.map f).clauses s = (b.clauses s).map f := by
  rw [clauses, clauses, get_map]
  rcases b.get s with _ | cs <;> rfl

theorem map_map (g : D → E) (b : BoolQuery C) : (b.map f).map g = b.map (g ∘ f) := by
  refine ext_get (fun s => ?_) rfl rfl
  rw [get_map, get_map, get_map]
  rcases b.get s with _ | cs
  · rfl
  · exact congrArg some List.map_map

/-- A map that changes no clause changes nothing. -/
theorem map_eq_self {f : C → C} {b : BoolQuery C} (h : b.Each fun c => f c = c) : b.map f = b := by
  refine ext_get (fun s => ?_) rfl rfl
  have hs := h s
  rw [clauses] at hs
  rw [get_map]
  rcases hg : b.get s with _ | cs
  · rfl
  · rw [hg] at hs
    exact congrArg some ((List.map_congr_left hs).trans (List.map_id cs))

@[simp] theorem clauseCount_map (b : BoolQuery C) : (b.map f).clauseCount = b.clauseCount := by
  simp only [clauseCount, clauses_map, List.length_map]

/-- How waiting values become clauses is carried along by the map. -/
theorem upcoming_map {raw : Value → C} {raw' : Value → D} (hraw : ∀ v, f (raw v) = raw' v)
    (b : BoolQuery C) (s : Section) :
    (b.map f).upcoming raw' s = (b.upcoming raw s).map f := by
  rcases hg : b.get s with _ | cs
  · have hg' : (b.map f).get s = none := by
      rw [get_map, hg, Option.map_none]
    rw [upcoming_of_absent hg, upcoming_of_absent hg', extra_map]
    rcases b.extra.find? s.text with _ | v
    · rfl
    · exact congrArg (fun c => [c]) (hraw v).symm
  · have hg' : (b.map f).get s = some (cs.map f) := by
      rw [get_map, hg, Option.map_some]
    rw [upcoming_of_get hg, upcoming_of_get hg']

theorem map_install {raw : Value → C} {raw' : Value → D} (hraw : ∀ v, f (raw v) = raw' v)
    (b : BoolQuery C) (s : Section) : (b.install raw s).map f = (b.map f).install raw' s := by
  refine ext_get (fun t => ?_) ?_ ?_
  · rw [get_map, get_install, get_install, upcoming_map hraw, get_map]
    by_cases h : t = s
    · rw [if_pos h, if_pos h, Option.map_some]
    · rw [if_neg h, if_neg h]
  · simp only [minimumShouldMatch_map, minimumShouldMatch_install]
  · simp only [extra_map, extra_install, get_map, Option.map_eq_none_iff]

theorem map_installAll {raw : Value → C} {raw' : Value → D} (hraw : ∀ v, f (raw v) = raw' v)
    (b : BoolQuery C) : (b.installAll raw).map f = (b.map f).installAll raw' :=
  (List.foldl_hom (map f) fun b s => (map_install hraw b s).symm).symm

theorem map_set (b : BoolQuery C) (s : Section) (cs? : Option (List C)) :
    (b.set s cs?).map f = (b.map f).set s (cs?.map (·.map f)) := by
  cases s <;> rfl

theorem map_append {raw : Value → C} {raw' : Value → D} (hraw : ∀ v, f (raw v) = raw' v)
    (b : BoolQuery C) (s : Section) (cs : List C) :
    (b.append raw s cs).map f = (b.map f).append raw' s (cs.map f) := by
  rw [append, append, map_set, ← map_install hraw, clauses_map, Option.map_some, List.map_append]

theorem map_prune (b : BoolQuery C) : b.prune.map f = (b.map f).prune := by
  refine ext_get (fun s => ?_) rfl rfl
  rw [get_map, get_prune, get_prune, get_map]
  rcases b.get s with _ | _ | ⟨c, rest⟩ <;> rfl

@[simp] theorem isEmpty_map (b : BoolQuery C) : (b.map f).isEmpty = b.isEmpty := by
  simp only [isEmpty, get_map, Option.isNone_map, minimumShouldMatch_map, extra_map]

end BoolQuery

namespace QueryRoot

variable {C D E : Type} {f : C → D}

theorem map_map (g : D → E) (q : QueryRoot C) : (q.map f).map g = q.map (g ∘ f) := by
  obtain ⟨bool, named⟩ := q
  rcases bool with _ | b
  · rfl
  · exact congrArg (fun b => (⟨some b, named⟩ : QueryRoot E)) (BoolQuery.map_map g b)

theorem map_finalized (q : QueryRoot C) : q.finalized.map f = (q.map f).finalized := by
  obtain ⟨bool, named⟩ := q
  rcases bool with _ | b
  · rfl
  · simp only [finalized, map, Option.map_some, ← BoolQuery.map_prune, BoolQuery.isEmpty_map]
    by_cases h : b.prune.isEmpty = true
    · rw [if_pos h, if_pos h]
      rfl
    · rw [if_neg h, if_neg h]
      rfl

theorem map_ensuredBool {raw : Value → C} {raw' : Value → D} (hraw : ∀ v, f (raw v) = raw' v)
    (q : QueryRoot C) : (q.ensuredBool raw).map f = (q.map f).ensuredBool raw' := by
  obtain ⟨bool, named⟩ := q
  rcases bool with _ | b
  · exact BoolQuery.map_installAll hraw {}
  · exact BoolQuery.map_installAll hraw b

/-- The map goes past an edit that it goes past on the level of bool queries. -/
theorem map_editBool {raw : Value → C} {raw' : Value → D} (hraw : ∀ v, f (raw v) = raw' v)
    {g : BoolQuery C → BoolQuery C} {g' : BoolQuery D → BoolQuery D}
    (hg : ∀ b, (g b).map f = g' (b.map f)) (q : QueryRoot C) :
    (q.editBool raw g).map f = (q.map f).editBool raw' g' := by
  simp only [editBool, map, Option.map_some, hg, map_ensuredBool hraw]

end QueryRoot

/-! ## Clauses without their kinds -/

namespace Clause

/-- The clause as a raw one, written alike. -/
def asRaw (c : Clause) : Clause := .raw c.toValue

@[simp] theorem asRaw_raw (v : Value) : (raw v).asRaw = raw v := rfl

@[simp] theorem toValue_asRaw (c : Clause) : c.asRaw.toValue = c.toValue := rfl

/-- Every clause of a kind is written as an object with the kind as its one key, so that the kind
can be read off what is written. -/
@[simp] theorem kind_asRaw (c : Clause) : c.asRaw.kind = c.kind := by
  cases c <;> rfl

end Clause

end SearchRequest

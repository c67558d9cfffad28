import SearchRequest.Proofs.Reached

/-!
# Clauses at every depth

Some clauses hold a query of their own, whose clauses may hold queries in turn. `Clause.Within`
finds a clause in a query at whatever depth, and `QueryRoot.Deep` says that all the clauses so found
have a property.

What has to be shown for such a property comes down to three facts, for `QueryRoot.Reached.deep`:
raw clauses have it, clauses that a call adds have it, and clauses that embed a finalized query have
it. Nothing has to be said about depth, about callbacks or about the order of calls. Where the third
fact depends on where the embedded query comes from, `QueryRoot.Reached.deep_of_reached` says so.
-/

namespace SearchRequest

/-! ## Finding clauses -/

namespace Clause

/-- The query that a clause holds, if it is of a kind that holds one. -/
def embedded? : Clause → Option (QueryRoot Clause)
  | nested _ query | hasChild _ query | hasParent _ query => some query
  | _ => none

/-- The clause stands in a section of the query, or within a query that such a clause holds. -/
inductive Within (c : Clause) : QueryRoot Clause → Prop where
  | here {q : QueryRoot Clause} {b : BoolQuery Clause} {s : Section} (hb : q.bool = some b)
    (hc : c ∈ b.clauses s) : Within c q
  | inside {q sub : QueryRoot Clause} {b : BoolQuery Clause} {s : Section} {outer : Clause}
    (hb : q.bool = some b) (ho : outer ∈ b.clauses s) (hs : outer.embedded? = some sub)
    (hc : Within c sub) : Within c q

end Clause

/-- Whatever the link is, the clause holds the query that it was made with. -/
theorem Embedding.embedded?_clause (link : Embedding) (label : String) (query : QueryRoot Clause) :
    (link.clause label query).embedded? = some query := by
  cases link <;> rfl

/-- All clauses of the query have the property, at every depth. -/
def QueryRoot.Deep (P : Clause → Prop) (q : QueryRoot Clause) : Prop := ∀ c, c.Within q → P c

/-- The clause has the property, and so do all the clauses within it. -/
def Clause.Deep (P : Clause → Prop) (c : Clause) : Prop :=
  P c ∧ ∀ sub, c.embedded? = some sub → sub.Deep P

/-! ## Deep properties, level by level -/

section Deep

variable {P : Clause → Prop}

/-- A raw clause holds no query of its own. -/
theorem Clause.Deep.raw (hraw : ∀ v, P (.raw v)) (v : Value) : Clause.Deep P (.raw v) :=
  ⟨hraw v, fun _ h => by cases h⟩

namespace QueryRoot

/-- A property goes deep when it does so from each clause at the top. -/
theorem deep_iff {q : QueryRoot Clause} :
    q.Deep P ↔ ∀ b, q.bool = some b → b.Each (Clause.Deep P) := by
  constructor
  · intro h b hb s c hc
    exact ⟨h c (.here hb hc), fun sub hs c' hc' => h c' (.inside hb hc hs hc')⟩
  · intro h c hc
    cases hc with
    | here hb hc => exact (h _ hb _ c hc).1
    | inside hb ho hs hc => exact (h _ hb _ _ ho).2 _ hs c hc

namespace Deep

variable {q : QueryRoot Clause}

theorem wrapper : (QueryRoot.wrapper : QueryRoot Clause).Deep P := by
  refine deep_iff.2 fun b hb => ?_
  obtain rfl := Option.some.inj hb
  exact .wrapper

/-- A query without a bool query has no clauses. -/
theorem ofNamed (kind : String) (body : Value) : (ofNamed kind body).Deep P :=
  deep_iff.2 fun b hb => by cases hb

/-- An edit of the bool query that keeps a deep property of its clauses keeps it of the query. -/
theorem editBool (h : q.Deep P) (hraw : ∀ v, P (.raw v)) {f : BoolQuery Clause → BoolQuery Clause}
    (hf : ∀ b, b.Each (Clause.Deep P) → (f b).Each (Clause.Deep P)) :
    (q.editBool .raw f).Deep P := by
  refine deep_iff.2 fun b hb => ?_
  obtain rfl := Option.some.inj hb
  refine hf _ ?_
  rw [ensuredBool]
  rcases hq : q.bool with _ | b
  · exact BoolQuery.Each.empty.installAll (Clause.Deep.raw hraw)
  · exact (deep_iff.1 h b hq).installAll (Clause.Deep.raw hraw)

/-- The finalizer adds no clause at any depth. -/
theorem finalized (h : q.Deep P) : q.finalized.Deep P := by
  rw [QueryRoot.finalized]
  rcases hq : q.bool with _ | b
  · exact h
  · by_cases he : b.prune.isEmpty = true
    · simp only [if_pos he]
      exact ofNamed _ _
    · simp only [if_neg he]
      refine deep_iff.2 fun b' hb' => ?_
      obtain rfl := Option.some.inj hb'
      exact (deep_iff.1 h b hq).prune

/-- The clauses that a merge takes over keep their deep properties. -/
theorem mergeable (h : q.Deep P) {c : Clause} (hc : c ∈ q.mergeable) : c.Deep P := by
  rw [QueryRoot.mergeable] at hc
  rcases hq : q.bool with _ | b
  · rw [hq] at hc
    exact absurd hc List.not_mem_nil
  · simp only [hq, List.mem_append] at hc
    rcases hc with hc | hc
    · exact deep_iff.1 h b hq .must c hc
    · exact deep_iff.1 h b hq .filter c hc

end Deep

end QueryRoot

end Deep

/-! ## Adopted queries -/

namespace BoolQuery

variable {C : Type} {P : C → Prop} {raw : Value → C}

theorem Each.adoptMember {b : BoolQuery C} (h : b.Each P) (hraw : ∀ v, P (raw v)) (key : String)
    (v : Value) : (b.adoptMember raw key v).Each P := by
  have hset : ∀ s cs, (∀ c ∈ cs, P c) → (b.set s (some cs)).Each P := by
    intro s cs hcs t c hc
    by_cases ht : t = s
    · rw [ht, clauses, get_set_self] at hc
      exact hcs c hc
    · rw [clauses, get_set_of_ne b _ ht] at hc
      exact h t c hc
  unfold BoolQuery.adoptMember
  rcases Section.ofText? key with _ | s
  · by_cases hk : key = minimumKey
    · simp only [if_pos hk]
      exact h.congr fun t => by cases t <;> rfl
    · simp only [if_neg hk]
      exact h.congr fun t => by cases t <;> rfl
  · cases v with
    | arr items =>
      refine hset s _ fun c hc => ?_
      obtain ⟨v, -, rfl⟩ := List.mem_map.1 hc
      exact hraw v
    | obj members =>
      refine hset s _ fun c hc => ?_
      obtain rfl := List.mem_singleton.1 hc
      exact hraw _
    | _ => exact h.congr fun t => by cases t <;> rfl

/-- An adopted bool query holds raw clauses only. -/
theorem Each.of_adopt {b : BoolQuery C} {v : Value} (hraw : ∀ v, P (raw v))
    (h : adopt raw v = .ok b) : b.Each P := by
  obtain ⟨members, rfl, rfl⟩ := adopt_eq_ok_iff.1 h
  exact List.foldlRecOn members _ .empty fun b hb m _ => hb.adoptMember hraw m.1 m.2

end BoolQuery

/-- A query that is adopted holds raw clauses only. -/
theorem QueryRoot.Deep.of_adopt {P : Clause → Prop} {q : QueryRoot Clause} {v : Value}
    (hraw : ∀ v, P (.raw v)) (h : adopt .raw v = .ok q) : q.Deep P := by
  refine deep_iff.2 fun b hb => ?_
  obtain ⟨members, rfl, ⟨-, rfl⟩ | ⟨body, b', -, ha, rfl⟩⟩ := adopt_eq_ok_iff.1 h
  · cases hb
  · obtain rfl := Option.some.inj hb
    exact .of_adopt (Clause.Deep.raw hraw) ha

/-! ## Queries that builders come to -/

/-- **Deep invariants of clauses.** A property of clauses holds at every depth of every query that
builders come to, if it holds of raw clauses, of those that calls add and of those that embed the
query of another builder. -/
theorem QueryRoot.Reached.deep_of_reached {config : Config} {A : Value → Prop} {P : Clause → Prop}
    {q : QueryRoot Clause} (h : q.Reached config A) (hraw : ∀ v, P (.raw v))
    (hcall : ∀ {call : ClauseCall} {s : Section} {c : Clause}, call.check config = .ok (s, c) →
      P c ∧ c.embedded? = none)
    (hembed : ∀ {link : Embedding} {label : String} {sub : QueryRoot Clause},
      link.check label = .ok () → sub.Reached config A → P (link.clause label sub.finalized)) :
    q.Deep P := by
  have happend {b : BoolQuery Clause} (hb : b.Each (Clause.Deep P)) {s : Section}
      {cs : List Clause} (hcs : ∀ c ∈ cs, c.Deep P) :
      (b.append .raw s cs).Each (Clause.Deep P) :=
    hb.append (Clause.Deep.raw hraw) hcs
  induction h with
  | wrapper => exact .wrapper
  | matchAll => exact .ofNamed _ _
  | adopt _ ha => exact .of_adopt hraw ha
  | wrap w _ _ _ => exact .ofNamed _ _
  | install _ ih => exact ih.editBool hraw fun b hb => hb
  | setMinimum count _ ih =>
    exact ih.editBool hraw fun b hb => hb.congr fun s => by cases s <;> rfl
  | clause hc _ ih =>
    refine ih.editBool hraw fun b hb => happend hb fun c' hc' => ?_
    obtain rfl := List.mem_singleton.1 hc'
    obtain ⟨hP, hnone⟩ := hcall hc
    exact ⟨hP, fun sub hs => by rw [hnone] at hs; cases hs⟩
  | merge _ _ _ ihsub ih =>
    exact ih.editBool hraw fun b hb => happend hb fun c' hc' => ihsub.mergeable hc'
  | @embed q sub link label hl hsub _ ihsub ih =>
    refine ih.editBool hraw fun b hb => happend hb fun c' hc' => ?_
    obtain rfl := List.mem_singleton.1 hc'
    refine ⟨hembed hl hsub, fun sub' hs => ?_⟩
    rw [link.embedded?_clause label] at hs
    obtain rfl := Option.some.inj hs
    exact ihsub.finalized

/-- The same where the embedded query may be any that is finalized. -/
theorem QueryRoot.Reached.deep {config : Config} {A : Value → Prop} {P : Clause → Prop}
    {q : QueryRoot Clause} (h : q.Reached config A) (hraw : ∀ v, P (.raw v))
    (hcall : ∀ {call : ClauseCall} {s : Section} {c : Clause}, call.check config = .ok (s, c) →
      P c ∧ c.embedded? = none)
    (hembed : ∀ {link : Embedding} {label : String} (sub : QueryRoot Clause),
      link.check label = .ok () → P (link.clause label sub.finalized)) : q.Deep P :=
  h.deep_of_reached hraw hcall fun hl _ => hembed _ hl

end SearchRequest

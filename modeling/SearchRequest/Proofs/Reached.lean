import SearchRequest.Proofs.Asking
import SearchRequest.Proofs.Calls
import SearchRequest.Proofs.Sections

/-!
# Queries that builders come to

The query of a document changes by a handful of edits only, and never looks at the rest of the
document. `QueryRoot.Reached` lists these edits, as an inductive predicate on queries: it holds of
the query of every builder that has been through some calls, and of the queries of all the
sub-builders on the way. An invariant of queries is proved by induction on it, with one case for
each way in which a query comes about; steps, callbacks and runs need not be looked at again.

The predicate has two parameters: the configuration, which all sub-builders share, and a predicate
`A` that all raw queries satisfy which are adopted on the way.
-/

namespace SearchRequest

namespace QueryRoot

/-- The query of a builder, or of the sub-builder of a callback, after some steps. -/
inductive Reached (config : Config) (A : Value → Prop) : QueryRoot Clause → Prop where
  /-- a new builder -/
  | wrapper : Reached config A .wrapper
  /-- the query that matches everything, in the place of the former one -/
  | matchAll : Reached config A .matchAll
  /-- a raw query, in the place of the former one -/
  | adopt {v : Value} {q : QueryRoot Clause} (hv : A v) (h : QueryRoot.adopt .raw v = .ok q) :
    Reached config A q
  /-- the whole former query, wrapped -/
  | wrap {q : QueryRoot Clause} (w : Wrapper) (hw : w.check = .ok ()) (hq : Reached config A q) :
    Reached config A (.ofNamed w.kind (w.body q.finalized.toValue))
  /-- the bool query installed, with its sections -/
  | install {q : QueryRoot Clause} (hq : Reached config A q) :
    Reached config A (q.editBool .raw id)
  /-- the bound on optional clauses set -/
  | setMinimum {q : QueryRoot Clause} (count : Nat) (hq : Reached config A q) :
    Reached config A (q.editBool .raw ({ · with minimumShouldMatch := some (.nat count) }))
  /-- one clause added -/
  | clause {q : QueryRoot Clause} {call : ClauseCall} {s : Section} {c : Clause}
      (hc : call.check config = .ok (s, c)) (hq : Reached config A q) :
    Reached config A (q.editBool .raw (·.append .raw s [c]))
  /-- the clauses of a sub-builder taken over -/
  | merge {q sub : QueryRoot Clause} {s : Section} (hs : s = .should ∨ s = .mustNot)
      (hsub : Reached config A sub) (hq : Reached config A q) :
    Reached config A (q.editBool .raw (·.append .raw s sub.mergeable))
  /-- the query of a sub-builder embedded -/
  | embed {q sub : QueryRoot Clause} {link : Embedding} {label : String}
      (hl : link.check label = .ok ()) (hsub : Reached config A sub) (hq : Reached config A q) :
    Reached config A (q.editBool .raw (·.append .raw .must [link.clause label sub.finalized]))

end QueryRoot

/-! ## Edits and the query -/

/-- The query that an edit leaves, when `q` was there before. -/
def Edit.onQuery (q : QueryRoot Clause) : Edit → QueryRoot Clause
  | append s cs => q.editBool .raw (·.append .raw s cs)
  | installBool => q.editBool .raw id
  | setMinimum count => q.editBool .raw ({ · with minimumShouldMatch := some (.nat count) })
  | wrap w => .ofNamed w.kind (w.body q.finalized.toValue)
  | replaceQuery query => query
  | reset => .wrapper
  | _ => q

namespace Document

/-- The query of the document is one that builders come to. -/
def QueryReached (config : Config) (A : Value → Prop) (d : Document) : Prop :=
  ∃ q, d.query = some q ∧ q.Reached config A

theorem embeddable_of_query {d : Document} {q : QueryRoot Clause} (h : d.query = some q) :
    d.embeddable = q.finalized := by
  rw [embeddable, h]
  rfl

theorem mergeable_of_query {d : Document} {q : QueryRoot Clause} (h : d.query = some q) :
    d.mergeable = q.mergeable := by
  rw [mergeable, QueryRoot.mergeable, bool?, h, Option.bind_some]
  rcases q.bool with _ | b <;> rfl

theorem editBool_of_query {d : Document} {q : QueryRoot Clause} (h : d.query = some q)
    (f : BoolQuery Clause → BoolQuery Clause) :
    d.editBool f = { d with query := some (q.editBool .raw f) } := by
  rw [editBool, h]
  rfl

end Document

/-- A child is attached where there is an aggregation to attach it to. -/
theorem Edit.apply_attachUnder_eq_ok_iff {parent name : String} {spec : Value} {d d' : Document} :
    (attachUnder parent name spec).apply d = .ok d' ↔
      d.attachUnder? parent name spec = some d' := by
  rw [apply]
  rcases d.attachUnder? parent name spec with _ | x <;> simp

/-- **Edits of the query**: what becomes of the query, whatever else the document holds. -/
theorem Edit.query_apply {e : Edit} {d d' : Document} {q : QueryRoot Clause}
    (h : e.apply d = .ok d') (hq : d.query = some q) : d'.query = some (e.onQuery q) := by
  cases e with
  | append s cs =>
    obtain rfl := Except.ok.inj h
    rw [Document.editBool_of_query hq, onQuery]
  | installBool =>
    obtain rfl := Except.ok.inj h
    rw [Document.editBool_of_query hq, onQuery]
  | setMinimum count =>
    obtain rfl := Except.ok.inj h
    rw [Document.editBool_of_query hq, onQuery]
  | wrap w =>
    obtain rfl := Except.ok.inj h
    rw [Document.wrapQuery, Document.embeddable_of_query hq, onQuery]
  | attachUnder parent name spec =>
    obtain ⟨p, -, rfl⟩ := Option.map_eq_some_iff.1 (apply_attachUnder_eq_ok_iff.1 h)
    exact hq
  | _ =>
    obtain rfl := Except.ok.inj h
    first | exact hq | rfl

/-! ## Steps and the query -/

namespace Step

variable {config : Config} {A : Value → Prop}

mutual

/-- The edit that a step asks for takes a query that builders come to, to another one. -/
theorem reached_onQuery (s : Step) {e : Edit} {q : QueryRoot Clause} (ha : s.Adopts A)
    (he : s.edit config = .ok e) (hq : q.Reached config A) : (e.onQuery q).Reached config A := by
  cases s with
  | clause call =>
    cases asks_of_edit he with
    | clause hc => exact .clause hc hq
  | should steps =>
    cases asks_of_edit he with
    | should hd =>
      obtain ⟨sub, hs, hsub⟩ := reached_runAll steps ha ⟨.wrapper, rfl, .wrapper⟩ hd
      rw [Document.mergeable_of_query hs]
      exact .merge (.inl rfl) hsub hq
  | mustNot steps =>
    cases asks_of_edit he with
    | mustNot hd =>
      obtain ⟨sub, hs, hsub⟩ := reached_runAll steps ha ⟨.wrapper, rfl, .wrapper⟩ hd
      rw [Document.mergeable_of_query hs]
      exact .merge (.inr rfl) hsub hq
  | embed link label steps =>
    cases asks_of_edit he with
    | embed hl hd =>
      obtain ⟨sub, hs, hsub⟩ := reached_runAll steps ha ⟨.wrapper, rfl, .wrapper⟩ hd
      rw [Document.embeddable_of_query hs]
      exact .embed hl hsub hq
  | minimumShouldMatch count =>
    cases asks_of_edit he
    exact .setMinimum count hq
  | ensureBoolQuery =>
    cases asks_of_edit he
    exact .install hq
  | wrap w =>
    cases asks_of_edit he with
    | wrap hw => exact .wrap w hw hq
  | setQuery v =>
    cases asks_of_edit he with
    | setQuery hv => exact .adopt ha hv
  | matchAll =>
    cases asks_of_edit he
    exact .matchAll
  | reset =>
    cases asks_of_edit he
    exact .wrapper
  -- the remaining steps leave the query alone
  | _ =>
    cases asks_of_edit he
    exact hq
termination_by structural s

/-- Steps in a row take a query that builders come to, to another one. -/
theorem reached_runAll (steps : List Step) {d d' : Document} (ha : AllAdopt A steps)
    (hd : d.QueryReached config A) (h : runAll config steps d = .ok d') :
    d'.QueryReached config A := by
  cases steps with
  | nil =>
    obtain rfl := Except.ok.inj h
    exact hd
  | cons s rest =>
    rw [runAll] at h
    obtain ⟨e, he, h⟩ := Checked.bind_eq_ok_iff.1 h
    obtain ⟨d₁, hd₁, h⟩ := Checked.bind_eq_ok_iff.1 h
    obtain ⟨q, hq, hr⟩ := hd
    exact reached_runAll rest ha.2
      ⟨e.onQuery q, Edit.query_apply hd₁ hq, reached_onQuery s ha.1 he hr⟩ h
termination_by structural steps

end

/-- **Steps reach queries**: a step leads from a query that builders come to, to another one. -/
theorem reached_apply {s : Step} {d d' : Document} (ha : s.Adopts A)
    (hd : d.QueryReached config A) (h : s.apply config d = .ok d') :
    d'.QueryReached config A := by
  obtain ⟨q, hq, hr⟩ := hd
  obtain ⟨e, he, hd'⟩ := apply_eq_ok_iff.1 h
  exact ⟨e.onQuery q, Edit.query_apply hd' hq, reached_onQuery s ha he hr⟩

end Step

/-! ## Runs and the query -/

/-- **Runs reach queries**: at the end of every run a builder has a query, one that builders come
to. -/
theorem Builder.queryReached_run {config : Config} {A : Value → Prop} {calls : List Call}
    (ha : ∀ call ∈ calls, call.Adopts A) :
    ((start config).run calls).document.QueryReached config A := by
  refine (run_preserves ?_ ⟨.wrapper, rfl, .wrapper⟩).1
  intro call hc steps hs s hm d d' hd h
  exact Step.reached_apply (Step.allAdopt_iff.1 (call.allAdopt (ha call hc) hs) s hm) hd h

end SearchRequest

import SearchRequest.Proofs.Written

/-!
# Adopting one's own query

A builder that adopts its own query, as written before it is finalized, comes to hold raw clauses
where it held clauses of a kind. This file shows that nobody can tell the difference.

* `Document.asRaw`, `Builder.asRaw` — forget the kinds of the clauses. Two builders with the same
  image agree in all but the kinds.
* `Builder.View` — what a builder shows: the document live and as it is sent, the cost estimate, the
  report, and the kinds by name. None of it depends on what `asRaw` forgets (`Builder.view_asRaw`).
* `Edit.asRaw_apply` — an edit does the same whether the kinds are known or forgotten. From edits
  this passes to steps, calls (`Builder.perform_alike`) and runs (`Builder.seen_alike`).
-/

namespace SearchRequest

/-! ## Queries without the kinds of their clauses -/

namespace QueryRoot

@[simp] theorem asRaw_asRaw (q : QueryRoot Clause) :
    (q.map Clause.asRaw).map Clause.asRaw = q.map Clause.asRaw := by
  rw [map_map]
  rfl

/-- What is written does not show the kinds. -/
@[simp] theorem toValue_asRaw (q : QueryRoot Clause) :
    (q.map Clause.asRaw).toValue = q.toValue := by
  rw [toValue, map_map]
  rfl

end QueryRoot

/-! ## Documents without the kinds of their clauses -/

namespace Document

/-- The document with raw clauses only, written alike. -/
def asRaw (d : Document) : Document := { d with query := d.query.map (·.map Clause.asRaw) }

/-- The kinds are lost once. -/
theorem query_asRaw_asRaw (d : Document) :
    d.asRaw.query.map (·.map Clause.asRaw) = d.query.map (·.map Clause.asRaw) := by
  rcases d with ⟨_, _, _ | q⟩
  · rfl
  · exact congrArg some q.asRaw_asRaw

/-- Documents that differ in the kinds of their clauses only have the same copy without them. -/
theorem asRaw_congr {d d' : Document} (h : d' = { d with query := d'.query })
    (hq : d'.query.map (·.map Clause.asRaw) = d.query.map (·.map Clause.asRaw)) :
    d'.asRaw = d.asRaw := by
  rw [asRaw, hq]
  exact congrArg (fun d'' => ({ d'' with query := d.query.map (·.map Clause.asRaw) } : Document)) h

@[simp] theorem asRaw_asRaw (d : Document) : d.asRaw.asRaw = d.asRaw :=
  asRaw_congr rfl d.query_asRaw_asRaw

/-- The bool query at the top, without the kinds. -/
theorem bool?_asRaw (d : Document) : d.asRaw.bool? = d.bool?.map (·.map Clause.asRaw) := by
  rcases d with ⟨_, _, _ | q⟩ <;> rfl

/-- What is written does not show the kinds. -/
@[simp] theorem toValue_asRaw (d : Document) : d.asRaw.toValue = d.toValue := by
  have hq : d.asRaw.query.map QueryRoot.toValue = d.query.map QueryRoot.toValue := by
    rw [asRaw, Option.map_map]
    exact congrFun (congrArg Option.map (funext QueryRoot.toValue_asRaw)) d.query
  rw [toValue, hq]
  rfl

/-- The finalizer does not look at the kinds. -/
theorem finalized_asRaw (d : Document) : d.asRaw.finalized = d.finalized.asRaw := by
  rcases d with ⟨_, _, _ | q⟩
  · rfl
  · rw [finalized, finalized, asRaw, asRaw, Option.map_some, Option.map_some, Option.map_some,
      Option.map_some, QueryRoot.map_finalized]

/-- A query is embedded without its kinds when it has none. -/
theorem embeddable_asRaw (d : Document) : d.asRaw.embeddable = d.embeddable.map Clause.asRaw := by
  rcases d with ⟨_, _, _ | q⟩
  · rfl
  · exact (QueryRoot.map_finalized q).symm

@[simp] theorem clauseCount_asRaw (d : Document) : d.asRaw.clauseCount = d.clauseCount := by
  rw [clauseCount, bool?_asRaw, clauseCount]
  rcases d.bool? with _ | b
  · rfl
  · exact b.clauseCount_map

@[simp] theorem complexity_asRaw (d : Document) : d.asRaw.complexity = d.complexity := by
  rw [complexity, clauseCount_asRaw]
  rfl

@[simp] theorem report_asRaw (window : Nat) (d : Document) :
    d.asRaw.report window = d.report window := by
  have hp : d.finalized.asRaw.problems window = d.finalized.problems window := by
    rw [problems, problems, asRaw, Option.isNone_map]
  rw [report, report, finalized_asRaw, hp]

/-- An edit of the bool query goes past the loss of the kinds. -/
theorem asRaw_editBool {f f' : BoolQuery Clause → BoolQuery Clause}
    (hf : ∀ b, (f b).map Clause.asRaw = f' (b.map Clause.asRaw)) (d : Document) :
    (d.editBool f).asRaw = d.asRaw.editBool f' := by
  have hq := QueryRoot.map_editBool Clause.asRaw_raw hf (d.query.getD {})
  have hd : (d.query.getD {}).map Clause.asRaw = d.asRaw.query.getD {} := by
    rcases d with ⟨_, _, _ | q⟩ <;> rfl
  rw [hd] at hq
  exact congrArg (fun q => ({ d with query := some q } : Document)) hq

end Document

/-! ## Edits without the kinds -/

/-- **Edits do not look at the kinds** of the clauses that are there: what they leave, and whether
they can be applied, is the same for a document and for its copy with raw clauses. -/
theorem Edit.asRaw_apply (e : Edit) (d : Document) :
    (e.apply d.asRaw).map Document.asRaw = (e.apply d).map Document.asRaw := by
  -- an edit of the bool query is carried over once to the copy, and once more to the copy of that
  have hbool {f : BoolQuery Clause → BoolQuery Clause} (f' : BoolQuery Clause → BoolQuery Clause)
      (hf : ∀ b, (f b).map Clause.asRaw = f' (b.map Clause.asRaw)) :
      (d.asRaw.editBool f).asRaw = (d.editBool f).asRaw := by
    rw [Document.asRaw_editBool hf, Document.asRaw_editBool hf, Document.asRaw_asRaw]
  cases e with
  | append s cs =>
    refine congrArg Except.ok (hbool (·.append .raw s (cs.map Clause.asRaw)) fun b => ?_)
    exact BoolQuery.map_append Clause.asRaw_raw b s cs
  | installBool => exact congrArg Except.ok (hbool id fun b => rfl)
  | setMinimum count =>
    refine congrArg Except.ok (hbool ({ · with minimumShouldMatch := some (.nat count) }) ?_)
    exact fun b => rfl
  | wrap w =>
    have he : d.asRaw.embeddable.toValue = d.embeddable.toValue := by
      rw [Document.embeddable_asRaw, QueryRoot.toValue_asRaw]
    rw [apply, apply, Document.wrapQuery, Document.wrapQuery, he]
    rfl
  | attachUnder parent name spec =>
    rw [apply, apply, Document.attachUnder?, Document.attachUnder?]
    have ha : d.asRaw.aggregation? parent = d.aggregation? parent := rfl
    rw [ha]
    rcases d.aggregation? parent with _ | p
    · rfl
    · exact congrArg Except.ok (Document.asRaw_congr rfl d.query_asRaw_asRaw)
  | replaceQuery query => rfl
  | reset => rfl
  -- what is left writes another part of the document
  | _ => exact congrArg Except.ok (Document.asRaw_congr rfl d.query_asRaw_asRaw)

/-- A step does not look at the kinds, since its edit is fixed before it meets the document. -/
theorem Step.asRaw_apply (config : Config) (d : Document) (s : Step) :
    (s.apply config d.asRaw).map Document.asRaw = (s.apply config d).map Document.asRaw := by
  rw [apply, apply]
  rcases s.edit config with r | e
  · rfl
  · exact e.asRaw_apply d

/-! ## Builders that agree in all but the kinds -/

namespace Builder

/-- The builder with raw clauses only. -/
def asRaw (b : Builder) : Builder := { b with document := b.document.asRaw }

/-- What a builder shows. -/
structure View where
  /-- the document as it stands -/
  live : Value
  /-- the document as it is sent -/
  sent : Value
  complexity : Nat
  report : Report
  /-- the kinds of the clauses in each section, if it is installed -/
  kinds : Section → Option (List String)

/-- What the builder shows. -/
def view (b : Builder) : View where
  live := b.document.toValue
  sent := b.toValue
  complexity := b.complexity
  report := b.validate
  kinds s := (b.rawSections.get s).map (·.map Clause.kind)

/-- A raw clause is shown as one of the kind that it has lost. -/
theorem kinds_asRaw (b : Builder) (s : Section) :
    (b.asRaw.rawSections.get s).map (·.map Clause.kind) =
      (b.rawSections.get s).map (·.map Clause.kind) := by
  rw [rawSections, rawSections, asRaw, Document.bool?_asRaw]
  rcases b.document.bool? with _ | bq
  · rfl
  · rw [Option.map_some, Option.getD_some, Option.getD_some, BoolQuery.get_map]
    rcases bq.get s with _ | cs
    · rfl
    · rw [Option.map_some, Option.map_some, Option.map_some, List.map_map]
      exact congrArg some (List.map_congr_left fun c _ => c.kind_asRaw)

/-- **The kinds are not shown.** -/
theorem view_asRaw (b : Builder) : b.asRaw.view = b.view := by
  have hlive : b.asRaw.document.toValue = b.document.toValue := b.document.toValue_asRaw
  have hsent : b.asRaw.toValue = b.toValue := by
    rw [toValue, toValue, build, build, asRaw, Document.finalized_asRaw, Document.toValue_asRaw]
  have hcost : b.asRaw.complexity = b.complexity := b.document.complexity_asRaw
  have hreport : b.asRaw.validate = b.validate := b.document.report_asRaw _
  rw [view, view, hlive, hsent, hcost, hreport, funext (kinds_asRaw b)]

/-- Builders that agree in all but the kinds show the same. -/
theorem view_alike {b b' : Builder} (h : b.asRaw = b'.asRaw) : b.view = b'.view := by
  rw [← view_asRaw, h, view_asRaw]

/-- A step does not look at the kinds. -/
theorem asRaw_step (b : Builder) (s : Step) :
    (b.asRaw.step s).map asRaw = (b.step s).map asRaw := by
  -- the kinds can be forgotten before the document goes back into the builder
  have hput (x : Checked Document) :
      (x.map ({ b with document := · })).map asRaw =
        (x.map Document.asRaw).map ({ b with document := · }) := by
    rcases x with r | d <;> rfl
  have hs := congrArg (Except.map ({ b with document := · })) (s.asRaw_apply b.config b.document)
  exact (hput _).trans (hs.trans (hput _).symm)

/-- A step takes builders that agree in all but the kinds to such builders, or is rejected by
both for one reason. -/
theorem step_alike {b b' : Builder} (h : b.asRaw = b'.asRaw) (s : Step) :
    (b.step s).map asRaw = (b'.step s).map asRaw := by
  rw [← asRaw_step, h, asRaw_step]

theorem performSteps_alike {b b' : Builder} (h : b.asRaw = b'.asRaw) (steps : List Step) :
    (b.performSteps steps).1.asRaw = (b'.performSteps steps).1.asRaw ∧
      (b.performSteps steps).2 = (b'.performSteps steps).2 := by
  induction steps generalizing b b' with
  | nil => exact ⟨h, rfl⟩
  | cons s rest ih =>
    -- the two outcomes are equal up to the kinds, so both are rejections or neither is
    have hs := step_alike h s
    rcases h₁ : b.step s with r | c
    · rcases h₂ : b'.step s with r' | c'
      · rw [h₁, h₂] at hs
        obtain rfl := Except.error.inj hs
        rw [performSteps_of_error h₁, performSteps_of_error h₂]
        exact ⟨h, rfl⟩
      · rw [h₁, h₂] at hs
        cases hs
    · rcases h₂ : b'.step s with r' | c'
      · rw [h₁, h₂] at hs
        cases hs
      · rw [h₁, h₂] at hs
        rw [performSteps_of_ok h₁, performSteps_of_ok h₂]
        exact ih (Except.ok.inj hs)

/-- **Calls do not look at the kinds.** -/
theorem perform_alike {b b' : Builder} (h : b.asRaw = b'.asRaw) (call : Call) :
    (b.perform call).1.asRaw = (b'.perform call).1.asRaw ∧
      (b.perform call).2 = (b'.perform call).2 := by
  rw [perform_eq, perform_eq]
  rcases call.steps with r | steps
  · exact ⟨h, rfl⟩
  · exact performSteps_alike h steps

/-- What can be seen of a run: after each call what the builder shows, and the rejection of the
call if there was one. -/
def seen (b : Builder) (calls : List Call) : List (View × Option Rejection) :=
  (b.trace calls).map fun outcome => (outcome.1.view, outcome.2)

/-- **Runs do not look at the kinds**: builders that agree in all else cannot be told apart by
making calls. -/
theorem seen_alike {b b' : Builder} (h : b.asRaw = b'.asRaw) (calls : List Call) :
    b.seen calls = b'.seen calls := by
  induction calls generalizing b b' with
  | nil => rfl
  | cons call rest ih =>
    obtain ⟨hnext, hrejection⟩ := perform_alike h call
    have hrest : (b.perform call).1.seen rest = (b'.perform call).1.seen rest := ih hnext
    rw [seen, trace, List.map_cons, view_alike hnext, hrejection]
    exact congrArg _ hrest

/-! ## The query of the builder itself -/

/-- A query whose keys stay apart can be adopted in the place of itself: what it costs are the
kinds of the clauses. -/
theorem perform_readopt {b : Builder} {q : QueryRoot Clause} (hq : b.document.query = some q)
    (h : q.KeysApart) : b.perform (.step (.setQuery q.toValue)) = (b.asRaw, none) := by
  have hs : b.step (.setQuery q.toValue) = .ok b.asRaw := by
    rw [step, Step.apply, Step.edit, QueryRoot.adopt_toValue h, asRaw, Document.asRaw, hq]
    rfl
  exact performSteps_of_ok hs

/-- **Adopting the own query is not seen.** After any run, a builder can adopt its own query, as
written before it is finalized. It then holds raw clauses only; what it shows is what it showed
before, and so it stays whatever calls follow: each of them is rejected for the same reason or
succeeds, and leaves the same to be seen. The raw queries of the run are well formed, as all JSON
from text is (`Value.wellFormed_of_parse`); those of the calls that follow may be anything. -/
theorem readopt_unseen {config : Config} {calls : List Call}
    (hw : ∀ call ∈ calls, call.Adopts fun v => v.wellFormed = true) :
    let b := (start config).run calls
    ∃ q, b.document.query = some q ∧
      b.perform (.step (.setQuery q.toValue)) = (b.asRaw, none) ∧
        b.asRaw.view = b.view ∧ ∀ later, b.asRaw.seen later = b.seen later := by
  intro b
  obtain ⟨q, hq, hr⟩ := queryReached_run hw
  refine ⟨q, hq, perform_readopt hq hr.keysApart, view_asRaw b, fun later => ?_⟩
  have ha : b.asRaw.asRaw = b.asRaw := congrArg (Builder.mk _) b.document.asRaw_asRaw
  exact seen_alike ha later

/-- A value waits under the key of a section, and a clause holds a query of its own. -/
theorem readopt_unseen_of_waiting :
    let b := (start {}).run
      [.step (.setQuery (.obj [("bool", .obj [("must", .str "later"), ("boost", .int 2)])])),
       .step (.embed .nested "lines" [.clause (.term "kind" (.str "book"))])]
    ∃ q, b.document.query = some q ∧
      b.perform (.step (.setQuery q.toValue)) = (b.asRaw, none) ∧
        b.asRaw.view = b.view ∧ ∀ later, b.asRaw.seen later = b.seen later := by
  refine readopt_unseen ?_
  rw [List.forall_mem_cons, List.forall_mem_singleton]
  exact ⟨rfl, ⟨trivial, trivial⟩⟩

end Builder

end SearchRequest

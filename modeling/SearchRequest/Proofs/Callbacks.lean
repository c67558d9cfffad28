import SearchRequest.Proofs.Asking
import SearchRequest.Proofs.Gaining
import SearchRequest.Proofs.Lookup

/-!
# Callbacks

A merge and an embedding take a callback, which works on a sub-builder: a new builder under the
configuration of the one that makes the call. Of the sub-builder, a merge takes over the clauses of
`must` and `filter` as they stand, and an embedding takes the query as it would be sent, for one
clause. Nothing else that the callback did is seen afterwards, and when the callback is rejected the
call is rejected for the same reason.

* `Builder.runAll_eq` — the steps of a callback, as calls of a builder.
* `Builder.embed_callback`, `Builder.merge_callback` — what becomes of the builder that makes the
  call, in terms of the sub-builder at the end of the callback.
-/

namespace SearchRequest

/-! ## Sub-builders -/

namespace Builder

/-- Steps in a row are done on a document as a builder does them, one call after the other. -/
theorem runAll_eq (b : Builder) (steps : List Step) :
    Step.runAll b.config steps b.document =
      match (b.performSteps steps).2 with
      | none => .ok (b.performSteps steps).1.document
      | some r => .error r := by
  induction steps generalizing b with
  | nil => rfl
  | cons s rest ih =>
    rw [Step.runAll_cons]
    rcases hs : s.apply b.config b.document with r | d
    · have hstep : b.step s = .error r := by
        rw [step, hs]
        rfl
      rw [performSteps_of_error hstep]
      rfl
    · have hstep : b.step s = .ok { b with document := d } := by
        rw [step, hs]
        rfl
      rw [performSteps_of_ok hstep]
      exact ih { b with document := d }

variable {config : Config} {steps : List Step}

/-- A callback that is done leaves the document of its sub-builder. -/
theorem runAll_of_done (h : ((start config).performSteps steps).2 = none) :
    Step.runAll config steps .fresh = .ok ((start config).performSteps steps).1.document := by
  have hrun := runAll_eq (start config) steps
  rw [h] at hrun
  exact hrun

/-- A rejected callback leaves the rejection. -/
theorem runAll_of_rejected {r : Rejection} (h : ((start config).performSteps steps).2 = some r) :
    Step.runAll config steps .fresh = .error r := by
  have hrun := runAll_eq (start config) steps
  rw [h] at hrun
  exact hrun

/-- No step takes the query of a builder away. -/
theorem exists_query_performSteps (config : Config) (steps : List Step) :
    ∃ q, ((start config).performSteps steps).1.document.query = some q := by
  refine (performSteps_preserves (P := fun d => ∃ q, d.query = some q) ?_ ⟨.wrapper, rfl⟩).1
  rintro s - d d' ⟨q, hq⟩ h
  obtain ⟨e, -, hd⟩ := Step.apply_eq_ok_iff.1 h
  exact ⟨e.onQuery q, Edit.query_apply hd hq⟩

/-- A step that adds clauses to the end of a section. -/
theorem perform_append {b : Builder} {s : Step} {target : Section} {cs : List Clause}
    (h : s.edit b.config = .ok (.append target cs)) :
    ∃ d, b.perform (.step s) = ({ b with document := d }, none) ∧ b.document.Gains target cs d :=
  ⟨_, perform_of_edit h rfl, b.document.gains_editBool target cs⟩

end Builder

/-! ## Embeddings -/

namespace Embedding

/-- The key under which a clause of the kind holds its path or type. -/
def labelKey : Embedding → String
  | nested => "path"
  | hasChild => "type"
  | hasParent => "parent_type"

/-- A written embedding holds the query as it is written by itself. -/
theorem toValue_clause (link : Embedding) (label : String) (query : QueryRoot Clause) :
    (link.clause label query).toValue =
      .single link.name (.obj [(link.labelKey, .str label), ("query", query.toValue)]) := by
  cases link with
  | nested => exact Clause.toValue_nested label query
  | hasChild => exact Clause.toValue_hasChild label query
  | hasParent => exact Clause.toValue_hasParent label query

end Embedding

namespace Builder

/-- **Embedding the query of a callback.** With a path or type that is not blank, the call is
rejected exactly when the callback is, on a new builder under the same configuration, and for the
same reason. If it is done, then `must` gains one clause at its end, which holds the query that the
new builder would send after the callback. Nothing else changes. -/
theorem embed_callback (b : Builder) (link : Embedding) {label : String} (steps : List Step)
    (hl : isBlank label = false) :
    let sub := (start b.config).performSteps steps
    let done := b.perform (.step (.embed link label steps))
    done.2 = sub.2 ∧ (sub.2 ≠ none → done.1 = b) ∧
      (sub.2 = none → ∃ query d,
        sub.1.build.query = some query ∧ sub.1.toValue.at? ["query"] = some query.toValue ∧
        done.1 = { b with document := d } ∧ b.document.Gains .must [link.clause label query] d ∧
        (link.clause label query).toValue =
          .single link.name (.obj [(link.labelKey, .str label), ("query", query.toValue)])) := by
  intro sub done
  have hcheck : link.check label = .ok () := Embedding.check_eq_ok_iff.2 hl
  rcases hsub : sub.2 with _ | r
  · obtain ⟨q, hq⟩ := exists_query_performSteps b.config steps
    have hbuild : sub.1.build.query = some q.finalized := Document.query_finalized hq
    have hedit := Step.edit_eq_ok_iff.2 (.embed hcheck (runAll_of_done hsub))
    rw [Document.embeddable_of_query hq] at hedit
    obtain ⟨d, hperform, hgains⟩ := perform_append hedit
    have hdone : done = ({ b with document := d }, none) := hperform
    refine ⟨by rw [hdone], fun h => absurd rfl h, fun _ => ?_⟩
    exact ⟨q.finalized, d, hbuild, Document.at?_query hbuild [], by rw [hdone], hgains,
      link.toValue_clause label _⟩
  · have hedit : (Step.embed link label steps).edit b.config = .error r := by
      rw [Step.edit, hcheck, runAll_of_rejected hsub]
      rfl
    have hdone : done = (b, some r) := perform_of_edit_error hedit
    exact ⟨by rw [hdone], fun _ => by rw [hdone], fun h => absurd h (Option.some_ne_none r)⟩

/-- A builder has a value that waits for `filter`, and a query beside its bool query. One callback
asks for a page and merges a callback of its own; another one is rejected at depth two. -/
theorem embed_callback_examples :
    let b := (start {}).run
      [.step (.setQuery (.obj [("knn", .obj []), ("bool", .obj [("filter", .str "later")])]))]
    let callback : List Step := [.size 3, .should [.clause (.term "kind" (.str "book"))]]
    let embedded := b.perform (.step (.embed .nested "lines" callback))
    let rejected := b.perform (.step (.embed .hasChild "line" [.should [.size 20000]]))
    (isBlank "lines" = false ∧ embedded.2 = none ∧ ∃ query d,
      embedded.1 = { b with document := d } ∧
      b.document.Gains .must [.nested "lines" query] d) ∧
    isBlank "line" = false ∧ rejected.1 = b ∧
      rejected.2 = some ((Fault.sizeTooLarge 10000 20000).reject "size" "size") := by
  intro b callback embedded rejected
  constructor
  · have hlabel : isBlank "lines" = false := rfl
    obtain ⟨hsame, -, hdone⟩ := embed_callback b .nested callback hlabel
    obtain ⟨query, d, -, -, hd, hgains, -⟩ := hdone rfl
    exact ⟨rfl, hsame, query, d, hd, hgains⟩
  · have hlabel : isBlank "line" = false := rfl
    obtain ⟨hsame, hkept, -⟩ := embed_callback b .hasChild [.should [.size 20000]] hlabel
    exact ⟨rfl, hkept nofun, hsame⟩

end Builder

/-! ## Merges -/

namespace Document

/-- A merge takes over what stands in `must` and behind it what stands in `filter`. -/
theorem mergeable_eq (d : Document) :
    d.mergeable = (d.bool?.getD {}).clauses .must ++ (d.bool?.getD {}).clauses .filter := by
  rw [mergeable]
  rcases d.bool? with _ | b <;> rfl

end Document

namespace Builder

/-- **Merging the clauses of a callback.** When the callback is done, on a new builder under the
same configuration, so is the call. Then `should`, or `must_not`, gains at its end the clauses that
stand in `must` of the new builder, and behind them those in `filter`. Nothing else changes. -/
theorem merge_callback (b : Builder) (steps : List Step)
    (h : ((start b.config).performSteps steps).2 = none) :
    let sub := ((start b.config).performSteps steps).1
    let taken := sub.rawSections.clauses .must ++ sub.rawSections.clauses .filter
    (∃ d, b.perform (.step (.should steps)) = ({ b with document := d }, none) ∧
      b.document.Gains .should taken d) ∧
      ∃ d, b.perform (.step (.mustNot steps)) = ({ b with document := d }, none) ∧
        b.document.Gains .mustNot taken d := by
  intro sub taken
  have hrun := runAll_of_done h
  have htaken : sub.document.mergeable = taken := sub.document.mergeable_eq
  have hshould := Step.edit_eq_ok_iff.2 (.should hrun)
  have hmustNot := Step.edit_eq_ok_iff.2 (.mustNot hrun)
  rw [htaken] at hshould hmustNot
  exact ⟨perform_append hshould, perform_append hmustNot⟩

/-- The callback adopts a query with clauses in `filter` and in `should`, and adds a clause to
`must`. What is taken over is that clause and then the one in `filter`. -/
theorem merge_callback_of_adopted :
    let b := (start {}).run [.step (.setQuery (.obj [("bool", .obj [("should", .str "later")])]))]
    let callback : List Step :=
      [.setQuery (.obj [("bool", .obj
         [("filter", .obj [("ids", .obj [])]), ("should", .arr [.null]), ("boost", .int 2)])]),
       .clause (.textMatch "title" (.str "lean")), .minimumShouldMatch 1, .size 3]
    let taken : List Clause :=
      [.textMatch "title" (.str "lean") none, .raw (.obj [("ids", .obj [])])]
    ((start b.config).performSteps callback).2 = none ∧
      (∃ d, b.perform (.step (.should callback)) = ({ b with document := d }, none) ∧
        b.document.Gains .should taken d) ∧
        ∃ d, b.perform (.step (.mustNot callback)) = ({ b with document := d }, none) ∧
          b.document.Gains .mustNot taken d := by
  intro b callback taken
  exact ⟨rfl, merge_callback b callback rfl⟩

end Builder

end SearchRequest

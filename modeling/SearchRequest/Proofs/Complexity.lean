import SearchRequest.Proofs.Attaching
import SearchRequest.Proofs.Callbacks
import SearchRequest.Proofs.Wrapping

/-!
# The cost estimate of a run

The cost estimate of a document counts what is in it. This file says what it comes to in terms of
the steps that were done, as long as none of them put another query in the place of the whole query:
one, a point for each clause that was added by itself, one for each clause that a merge took over,
two for each name under which an aggregation was attached, and one for each entry to sort by. So the
estimate never falls from one step to the next.

* `Document.Tallies` — the four counts, as an invariant of the document together with the steps that
  were done. What a single step adds to the clauses is read off its edit, see `Edit.grown`.
* `Document.complexity_finalized` — cleaning a document up does not change its estimate.
* `Builder.complexity_of_run` — the estimate after a run.
-/

namespace SearchRequest

/-! ## Documents as they are sent -/

namespace BoolQuery

variable {C : Type}

/-- The clauses, section by section. -/
theorem clauseCount_eq_length (b : BoolQuery C) :
    b.clauseCount = (Section.all.flatMap b.clauses).length := by
  simp [clauseCount, Section.all]
  omega

@[simp] theorem clauseCount_prune (b : BoolQuery C) : b.prune.clauseCount = b.clauseCount := by
  simp [clauseCount]

/-- A bool query that would be written without any key has no clauses. -/
theorem clauseCount_of_isEmpty {b : BoolQuery C} (h : b.isEmpty = true) : b.clauseCount = 0 := by
  have hnone (s : Section) : b.clauses s = [] := by
    simp only [isEmpty, Bool.and_eq_true, List.all_eq_true, Option.isNone_iff_eq_none] at h
    rw [clauses, h.1.1 s s.mem_all]
    rfl
  simp [clauseCount, hnone]

end BoolQuery

namespace Document

/-- The finalizer loses no clause: a query that it replaces has none. -/
theorem clauseCount_finalized (d : Document) : d.finalized.clauseCount = d.clauseCount := by
  rcases d with ⟨_, _, _ | ⟨_ | b, named⟩⟩
  · rfl
  · rfl
  · by_cases he : b.prune.isEmpty = true
    · have hb : b.clauseCount = 0 := by
        rw [← b.clauseCount_prune, BoolQuery.clauseCount_of_isEmpty he]
      simp [finalized, clauseCount, bool?, QueryRoot.finalized, he, hb]
      rfl
    · simp [finalized, clauseCount, bool?, QueryRoot.finalized, he]

/-- **Cleaning up** a document does not change its estimate. -/
theorem complexity_finalized (d : Document) : d.finalized.complexity = d.complexity := by
  have hsort : d.finalized.sortCount = d.sortCount := by
    rw [sortCount, sortCount, finalized]
    rcases d.sort with _ | _ | ⟨spec, rest⟩ <;> rfl
  have haggregations : d.finalized.aggregationCount = d.aggregationCount := rfl
  rw [complexity, complexity, clauseCount_finalized, hsort, haggregations]

end Document

/-! ## What steps add -/

namespace Step

/-- The step adds one clause: it is a call for a clause, or an embedding. -/
def addsOne : Step → Bool
  | clause _ | embed .. => true
  | _ => false

/-- The clauses that a merge takes over: those that stand in `must` and in `filter` of a new builder
after the callback. -/
def merged (config : Config) : Step → List Clause
  | should steps | mustNot steps =>
    let sections := ((Builder.start config).performSteps steps).1.rawSections
    sections.clauses .must ++ sections.clauses .filter
  | _ => []

/-- The step adds an entry to sort by. -/
def isSort : Step → Bool
  | sort .. | sortWith .. => true
  | _ => false

end Step

namespace Edit

/-- How many clauses an edit adds to the bool query. -/
def grown : Edit → Nat
  | append _ cs => cs.length
  | _ => 0

/-- The clauses that an edit adds, section by section. -/
theorem length_added (e : Edit) : (Section.all.flatMap e.added).length = e.grown := by
  cases e with
  | append t cs => cases t <;> simp [added, grown, Section.all]
  | _ => rfl

end Edit

/-- A callback that is done leaves its sub-builder with the document of the run. -/
theorem Builder.performSteps_of_runAll {config : Config} {steps : List Step} {d : Document}
    (h : Step.runAll config steps .fresh = .ok d) :
    ((start config).performSteps steps).1.document = d := by
  have hrun := runAll_eq (start config) steps
  rcases hr : ((start config).performSteps steps).2 with _ | r
  · rw [hr] at hrun
    exact Except.ok.inj (hrun.symm.trans h)
  · rw [hr] at hrun
    exact nomatch hrun.symm.trans h

/-- What a step adds to the clauses is read off the edit that it asks for. -/
theorem Step.grown_of_edit {config : Config} {s : Step} {e : Edit} (h : s.edit config = .ok e) :
    e.grown = [s].countP addsOne + (s.merged config).length := by
  cases asks_of_edit h with
  | should hd | mustNot hd =>
    rw [Edit.grown, Document.mergeable_eq, merged, Builder.rawSections,
      Builder.performSteps_of_runAll hd]
    exact (Nat.zero_add _).symm
  | _ => rfl

/-! ## Documents with all sections -/

namespace Document

/-- The bool query is installed, with all its sections. -/
def Installed (d : Document) : Prop :=
  ∃ b, d.bool? = some b ∧ ∀ s, (b.get s).isSome = true

theorem installed_fresh : fresh.Installed :=
  ⟨.wrapper, rfl, fun s => by cases s <;> rfl⟩

/-- **Edits count**: with all sections installed, an edit that leaves the query in its place adds to
the clauses what it brings along, and all sections stay installed. -/
theorem clauseCount_apply {e : Edit} {d d' : Document} (hd : d.Installed)
    (hr : e.replacesQuery = false) (h : e.apply d = .ok d') :
    d'.Installed ∧ d'.clauseCount = d.clauseCount + e.grown := by
  obtain ⟨b, hb, hinstalled⟩ := hd
  obtain ⟨q, hq, hqb⟩ := Option.bind_eq_some_iff.1 hb
  have hquery := Edit.query_apply h hq
  rcases hi : e.installsBool with _ | _
  · -- the query is left alone
    have hbool : d'.bool? = some b := by
      rw [bool?, hquery, e.onQuery_eq_self hi hr]
      exact hqb
    have hgrown : e.grown = 0 := by
      cases e with
      | append => cases hi
      | _ => rfl
    refine ⟨⟨b, hbool, hinstalled⟩, ?_⟩
    rw [clauseCount, clauseCount, hbool, hb, hgrown, Nat.add_zero]
  · obtain ⟨b', hb', hget⟩ := e.get_onQuery q hi
    have hbool : d'.bool? = some b' := by
      rw [bool?, hquery]
      exact hb'
    refine ⟨⟨b', hbool, fun s => by rw [hget s]; rfl⟩, ?_⟩
    -- no value waits for an installed section, so each has what it had and what is added
    have hclauses (s : Section) : b'.clauses s = b.clauses s ++ e.added s := by
      obtain ⟨cs, hcs⟩ := Option.isSome_iff_exists.1 (hinstalled s)
      rw [BoolQuery.clauses, hget s, hqb, Option.getD_some, Option.getD_some,
        BoolQuery.upcoming_of_get hcs, BoolQuery.clauses, hcs, Option.getD_some]
    rw [clauseCount, clauseCount, hbool, hb, Option.map_some, Option.map_some, Option.getD_some,
      Option.getD_some, BoolQuery.clauseCount_eq_length, BoolQuery.clauseCount_eq_length,
      ← e.length_added]
    simp only [hclauses, Section.all, List.flatMap_cons, List.flatMap_nil, List.length_append,
      List.length_nil]
    omega

end Document

/-! ## Tallies -/

namespace Document

/-- What the parts of a document count, in terms of the steps that were done. -/
structure Tallies (config : Config) (done : List Step) (d : Document) : Prop where
  installed : d.Installed
  clauses : d.clauseCount = done.countP Step.addsOne + (done.flatMap (Step.merged config)).length
  sorts : d.sortCount = done.countP Step.isSort
  /-- the document was never started anew -/
  kept : sinceReset done = done
  aggregations : Attaches done d.aggregations

namespace Tallies

variable {config : Config} {done : List Step} {d d' : Document}

theorem fresh : Tallies config [] .fresh where
  installed := installed_fresh
  clauses := rfl
  sorts := rfl
  kept := rfl
  aggregations := .nil

/-- **One step more** that is done and leaves the query in its place. -/
theorem apply {s : Step} (h : d.Tallies config done) (hr : s.replacesQuery = false)
    (hs : s.apply config d = .ok d') : d'.Tallies config (done ++ [s]) := by
  obtain ⟨e, he, hd⟩ := Step.apply_eq_ok_iff.1 hs
  obtain ⟨hinstalled, hcount⟩ :=
    clauseCount_apply h.installed (Step.replacesQuery_of_edit he ▸ hr) hd
  have hkept : sinceReset (done ++ [s]) = done ++ [s] := by
    have hreset : s.isReset = false := by
      cases s with
      | reset => cases hr
      | _ => rfl
    rw [sinceReset, List.rtakeWhile_concat_pos _ _ _ (by rw [hreset]; rfl), ← sinceReset, h.kept]
  have hsorts : d'.sortCount = d.sortCount + [s].countP Step.isSort := by
    cases Step.asks_of_edit he with
    | sort | sortWith =>
      obtain rfl := Except.ok.inj hd
      rw [sortCount, sortCount]
      rcases d.sort with _ | specs
      · rfl
      · exact List.length_append
    | subAggregate =>
      obtain ⟨_, -, rfl⟩ := Option.map_eq_some_iff.1 (Edit.apply_attachUnder_eq_ok_iff.1 hd)
      rfl
    | wrap | setQuery | matchAll | reset => cases hr
    | _ =>
      obtain rfl := Except.ok.inj hd
      rfl
  have hattached := Attaches.apply (h.kept.symm ▸ h.aggregations) hs
  refine ⟨hinstalled, ?_, ?_, hkept, hkept ▸ hattached⟩
  · rw [hcount, Step.grown_of_edit he, h.clauses, List.countP_append, List.flatMap_append,
      List.length_append, List.flatMap_singleton]
    omega
  · rw [hsorts, h.sorts, List.countP_append]

/-- The estimate is the sum of the tallies. -/
theorem complexity_eq (h : d.Tallies config done) :
    d.complexity = 1 + done.countP Step.addsOne + (done.flatMap (Step.merged config)).length +
      2 * (attachments done).keys.eraseDups.length + done.countP Step.isSort := by
  have hnames : d.aggregationCount = (attachments done).keys.eraseDups.length := by
    rw [← h.aggregations.names, Object.keys, List.length_map, aggregationCount]
    rcases d.aggregations with _ | aggs <;> rfl
  rw [complexity, h.clauses, h.sorts, hnames]
  omega

/-- The estimate does not fall when more steps are done. -/
theorem complexity_le {later : List Step} (h : d.Tallies config done)
    (h' : d'.Tallies config (done ++ later)) : d.complexity ≤ d'.complexity := by
  have hnames : (attachments done).keys.eraseDups.length ≤
      (attachments (done ++ later)).keys.eraseDups.length := by
    simp [attachments, Object.keys_append, List.eraseDups_append]
  rw [h.complexity_eq, h'.complexity_eq, List.countP_append, List.countP_append,
    List.flatMap_append, List.length_append]
  omega

end Tallies

end Document

/-! ## Runs -/

namespace Builder

/-- The steps that are done in two runs, the one behind the other. -/
theorem done_append (b : Builder) (calls later : List Call) :
    b.done (calls ++ later) = b.done calls ++ (b.run calls).done later := by
  induction calls generalizing b with
  | nil => rfl
  | cons call rest ih => rw [List.cons_append, done, done, ih, List.append_assoc, run]

theorem tallies_run (config : Config) {steps : List Step}
    (hr : ∀ s ∈ steps, s.replacesQuery = false) :
    ((start config).run (steps.map .step)).document.Tallies config
      ((start config).done (steps.map .step)) := by
  have hfresh : (start config).document.Tallies config [] := .fresh
  refine done_run (P := fun done d => d.Tallies config done) ?_ hfresh
  intro call hc steps' hs s hm done d d' hd happly
  obtain ⟨s', hs', rfl⟩ := List.mem_map.1 hc
  obtain rfl := Except.ok.inj hs
  obtain rfl := List.mem_singleton.1 hm
  exact hd.apply (hr s hs') happly

/-- **The estimate after a run** of steps on a new builder, none of which replaces the query. Only
the steps that are done count: one point for each clause that a call or an embedding added, those
that the merges took over, two for each name of an aggregation, and one for each entry to sort by.
The estimate never falls on the way. After any run at all, it is also the estimate of the document
that would be sent. -/
theorem complexity_of_run (config : Config) (steps : List Step)
    (hr : ∀ s ∈ steps, s.replacesQuery = false) :
    let b := (start config).run (steps.map .step)
    let done := (start config).done (steps.map .step)
    b.complexity =
        1 + done.countP Step.addsOne + (done.flatMap (Step.merged config)).length +
          2 * (attachments done).keys.eraseDups.length + done.countP Step.isSort ∧
      (∀ made, made <+: steps →
        ((start config).run (made.map .step)).complexity ≤ b.complexity) ∧
      ∀ calls, ((start config).run calls).build.complexity =
        ((start config).run calls).complexity := by
  intro b done
  refine ⟨(tallies_run config hr).complexity_eq, ?_, fun calls => Document.complexity_finalized _⟩
  rintro made ⟨later, rfl⟩
  have hmade := tallies_run config fun s hs => hr s (List.mem_append_left later hs)
  have hall := tallies_run config hr
  rw [List.map_append, done_append, ← List.map_append] at hall
  exact hmade.complexity_le hall

/-- Two clauses are merged and one is added, a page is too large, and one of two names is used
twice. -/
theorem complexity_of_run_examples :
    let steps : List Step :=
      [.clause (.term "kind" (.str "book")), .size 20000,
       .should [.clause (.textMatch "title" (.str "lean")), .clause (.fieldExists "isbn"),
         .matchAll, .clause (.fieldExists "year"), .clause (.fieldExists "isbn")],
       .aggregate (.metric .avg "price" "price"), .aggregate (.terms "authors" "author" 10),
       .aggregate (.metric .stats "price" "price"),
       .subAggregate "price" "top" (.obj []), .sort "year" "desc", .sort "year" "up"]
    (∀ s ∈ steps, s.replacesQuery = false) ∧
      ((start {}).run (steps.map .step)).complexity = 1 + 1 + 2 + 2 * 2 + 1 ∧
      ((start {}).run ((steps.take 3).map .step)).complexity ≤
        ((start {}).run (steps.map .step)).complexity := by
  intro steps
  have hr : ∀ s ∈ steps, s.replacesQuery = false := by decide
  obtain ⟨hcount, hfalls, -⟩ := complexity_of_run {} steps hr
  exact ⟨hr, hcount, hfalls _ (List.take_prefix 3 steps)⟩

end Builder

end SearchRequest

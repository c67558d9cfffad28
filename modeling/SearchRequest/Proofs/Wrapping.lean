import SearchRequest.Proofs.Asking
import SearchRequest.Proofs.Atomicity
import SearchRequest.Proofs.Waiting

/-!
# Clauses beside a wrapped query

Wrapping puts one named query in the place of the whole query, with the former query in its body, as
it would have been sent. Clauses that are added afterwards do not go into the body: they make up a
bool query of their own, beside the wrapper.

That bool query is the one which the same calls build on a new builder. `QueryRoot.Beside` relates
the two queries, the one beside the wrapper and the one that stands alone, and every step keeps the
relation that does not put another query in the place of the whole query (`Step.replacesQuery`).

When the bool query turns out to be empty, the whole query, the wrapper included, is sent as the one
that matches everything; see `Builder.wrapped_query`.
-/

namespace SearchRequest

/-! ## Wrappers -/

namespace Wrapper

/-- The key under which a wrapper holds the former query. -/
def innerKey : Wrapper → String
  | functionScore .. => "query"
  | constantScore _ => "filter"

/-- A wrapper around a query, as it is sent. -/
def around (inner : Value) (w : Wrapper) : Value := .single w.kind (w.body inner)

theorem at?_innerKey (w : Wrapper) (inner : Value) :
    (w.body inner).at? [w.innerKey] = some inner := by
  cases w <;> rfl

end Wrapper

/-! ## Steps that leave the query in its place -/

/-- The step puts another query in the place of the whole query. -/
def Step.replacesQuery : Step → Bool
  | wrap _ | setQuery _ | matchAll | reset => true
  | _ => false

theorem Step.replacesQuery_of_edit {config : Config} {s : Step} {e : Edit}
    (h : s.edit config = .ok e) : s.replacesQuery = e.replacesQuery := by
  cases asks_of_edit h <;> rfl

/-- What an edit of the bool query does to it does not depend on what stands beside it. -/
theorem Edit.exists_editBool {e : Edit} (h : e.installsBool = true) :
    ∃ f, ∀ q : QueryRoot Clause, e.onQuery q = q.editBool .raw f := by
  cases e with
  | append s cs => exact ⟨(·.append .raw s cs), fun _ => rfl⟩
  | installBool => exact ⟨id, fun _ => rfl⟩
  | setMinimum count => exact ⟨({ · with minimumShouldMatch := some (.nat count) }), fun _ => rfl⟩
  | _ => cases h

namespace Builder

/-- The query that a builder would send. -/
theorem at?_sent {b : Builder} {q : QueryRoot Clause} (h : b.document.query = some q) :
    b.toValue.at? ["query"] = some q.finalized.toValue :=
  Document.at?_query (Document.query_finalized h) []

/-- A step that installs the bool query is done on every builder, and changes the bool query of each
in the same way. -/
theorem query_perform_of_installs {config : Config} {s : Step} (h : s.installs config = true) :
    ∃ f, ∀ b : Builder, b.config = config → ∀ q, b.document.query = some q →
      (b.perform (.step s)).1.document.query = some (q.editBool .raw f) := by
  obtain ⟨e, he, hi⟩ := Step.installs_iff.1 h
  obtain ⟨f, hf⟩ := Edit.exists_editBool hi
  refine ⟨f, ?_⟩
  rintro b rfl q hq
  obtain ⟨d, hd⟩ := Edit.apply_of_installsBool hi b.document
  rw [perform_of_edit he hd, Edit.query_apply hd hq, hf]

/-- Any other step leaves the query alone, unless it replaces it. -/
theorem query_perform_of_not_installs {b : Builder} {s : Step} (hi : s.installs b.config = false)
    (hr : s.replacesQuery = false) {q : QueryRoot Clause} (hq : b.document.query = some q) :
    (b.perform (.step s)).1.document.query = some q := by
  rcases he : s.edit b.config with r | e
  · rw [perform_of_edit_error he]
    exact hq
  · rcases hd : e.apply b.document with r | d
    · have hs : b.step s = .error r := by
        rw [step, Step.apply, he, Except.bind, hd]
        rfl
      have hperform : b.perform (.step s) = (b, some r) := performSteps_of_error hs
      rw [hperform]
      exact hq
    · have hei : e.installsBool = false := by
        rcases hei : e.installsBool with _ | _
        · rfl
        · rw [Step.installs_iff.2 ⟨e, he, hei⟩] at hi
          cases hi
      rw [Step.replacesQuery_of_edit he] at hr
      rw [perform_of_edit he hd, Edit.query_apply hd hq, e.onQuery_eq_self hei hr]

/-- A wrap is done when its arguments pass, and then the wrapper alone is the query. -/
theorem query_perform_wrap {b : Builder} {w : Wrapper} (hw : w.check = .ok ())
    {q : QueryRoot Clause} (hq : b.document.query = some q) :
    (b.perform (.step (.wrap w))).2 = none ∧
      (b.perform (.step (.wrap w))).1.document.query =
        some (.ofNamed w.kind (w.body q.finalized.toValue)) := by
  have hd : (Edit.wrap w).apply b.document = .ok (b.document.wrapQuery w) := rfl
  rw [perform_of_edit (Step.edit_eq_ok_iff.2 (.wrap hw)) hd]
  exact ⟨rfl, Edit.query_apply hd hq⟩

theorem check_of_perform_wrap {b : Builder} {w : Wrapper}
    (h : (b.perform (.step (.wrap w))).2 = none) : w.check = .ok () := by
  obtain ⟨e, he, -⟩ := Step.apply_eq_ok_iff.1 (apply_of_performSteps h)
  cases Step.asks_of_edit he with
  | wrap hcheck => exact hcheck

end Builder

/-! ## The bool query beside a wrapper -/

namespace QueryRoot

/-- A bool query is not the query that matches everything. -/
theorem single_boolKey_ne (bool : Value) :
    Value.single boolKey bool ≠ .single matchAllKey (.obj []) := by
  simp [Value.single, boolKey, matchAllKey]

/-- A named query, with the bool query beside it that the other query consists of. Before the bool
query is installed, the other query is that of a new builder. -/
inductive Beside (kind : String) (body : Value) :
    Bool → QueryRoot Clause → QueryRoot Clause → Prop where
  | apart : Beside kind body false (.ofNamed kind body) .wrapper
  | joined (b : BoolQuery Clause) :
    Beside kind body true ⟨some b, [(kind, body)]⟩ ⟨some b, []⟩

namespace Beside

variable {kind : String} {body : Value} {installed : Bool} {q alone : QueryRoot Clause}

/-- The first edit installs the same bool query beside the named one as in a new builder. -/
theorem editBool (h : Beside kind body installed q alone)
    (f : BoolQuery Clause → BoolQuery Clause) :
    Beside kind body true (q.editBool .raw f) (alone.editBool .raw f) := by
  cases h with
  | apart => exact .joined _
  | joined b => exact .joined _

/-- The named query is written as it is. -/
theorem at?_kind (h : Beside kind body installed q alone) (hk : kind ≠ boolKey) :
    q.toValue.at? [kind] = some body := by
  have hnamed : Object.find? [(kind, body)] kind = some body := by
    rw [Object.find?_cons, if_pos rfl]
  cases h with
  | apart => exact congrArg (Option.bind · (Value.at? · [])) hnamed
  | joined b =>
    have hf : (Object.insert [(kind, body)] boolKey b.toValue).find? kind = some body := by
      rw [Object.find?_insert_of_ne _ _ hk, hnamed]
    exact congrArg (Option.bind · (Value.at? · [])) hf

/-- Before the bool query is installed, the named query is sent alone. -/
theorem toValue_finalized_apart (h : Beside kind body false q alone) :
    q.finalized.toValue = .single kind body := by
  cases h
  rfl

/-- An installed bool query is either empty, and both queries are sent as the one that matches
everything, or it is sent beside the named query as it is sent alone. -/
theorem toValue_finalized_joined (h : Beside kind body true q alone) (hk : kind ≠ boolKey) :
    (alone.finalized.toValue = .single matchAllKey (.obj []) ∧
      q.finalized.toValue = .single matchAllKey (.obj [])) ∨
    ∃ bool, alone.finalized.toValue = .single boolKey bool ∧
      q.finalized.toValue = .obj [(kind, body), (boolKey, bool)] := by
  cases h with
  | joined b =>
    by_cases he : b.prune.isEmpty = true
    · refine .inl ⟨?_, ?_⟩
      · rw [finalized]
        simp only [if_pos he]
        rfl
      · rw [finalized]
        simp only [if_pos he]
        rfl
    · refine .inr ⟨b.prune.toValue, ?_, ?_⟩
      · rw [finalized]
        simp only [if_neg he]
        rfl
      · rw [finalized]
        simp only [if_neg he]
        have hinsert : Object.insert [(kind, body)] boolKey b.prune.toValue =
            [(kind, body), (boolKey, b.prune.toValue)] :=
          Object.insert_of_not_mem _ (by simpa [Object.keys] using hk.symm)
        exact congrArg Value.obj hinsert

end Beside

end QueryRoot

/-! ## Runs beside a wrapper -/

namespace Builder

/-- Two builders of one configuration, the one with a named query and the other without it, and with
the same bool query as far as one is installed. -/
def Beside (kind : String) (body : Value) (installed : Bool) (b alone : Builder) : Prop :=
  alone.config = b.config ∧ ∃ q q', b.document.query = some q ∧ alone.document.query = some q' ∧
    q.Beside kind body installed q'

namespace Beside

variable {kind : String} {body : Value} {installed : Bool} {b alone : Builder}

theorem perform_step {s : Step} (h : Beside kind body installed b alone)
    (hr : s.replacesQuery = false) :
    Beside kind body (installed || s.installs b.config) (b.perform (.step s)).1
      (alone.perform (.step s)).1 := by
  obtain ⟨hconfig, q, q', hq, hq', hbeside⟩ := h
  refine ⟨by rw [config_perform, config_perform, hconfig], ?_⟩
  rcases hi : s.installs b.config with _ | _
  · rw [Bool.or_false]
    exact ⟨q, q', query_perform_of_not_installs hi hr hq,
      query_perform_of_not_installs (hconfig ▸ hi) hr hq', hbeside⟩
  · obtain ⟨f, hf⟩ := query_perform_of_installs hi
    rw [Bool.or_true]
    exact ⟨_, _, hf b rfl q hq, hf alone hconfig q' hq', hbeside.editBool f⟩

/-- Steps in a row, none of which replaces the query. -/
theorem run_steps {steps : List Step} (h : Beside kind body installed b alone)
    (hr : ∀ s ∈ steps, s.replacesQuery = false) :
    Beside kind body (installed || steps.any (·.installs b.config)) (b.run (steps.map .step))
      (alone.run (steps.map .step)) := by
  induction steps generalizing b alone installed with
  | nil =>
    rw [List.any_nil, Bool.or_false]
    exact h
  | cons s rest ih =>
    have hrest := ih (h.perform_step (hr s List.mem_cons_self)) fun later hl =>
      hr later (List.mem_cons_of_mem s hl)
    rw [config_perform, Bool.or_assoc] at hrest
    exact hrest

end Beside

/-- Steps of which one installs the bool query are steps of which one does so and is done. -/
theorem any_installs_iff {b : Builder} {steps : List Step} :
    steps.any (·.installs b.config) = true ↔
      ∃ s, Call.step s ∈ b.accepted (steps.map .step) ∧ s.installsBool = true := by
  induction steps generalizing b with
  | nil => simp [accepted]
  | cons s rest ih =>
    have hrest := ih (b := (b.perform (.step s)).1)
    rw [config_perform] at hrest
    rw [List.any_cons, Bool.or_eq_true, hrest, List.map_cons, installs_eq, Bool.and_eq_true]
    rcases h : (b.perform (.step s)).2 with _ | r
    · simp [accepted_cons_of_done h]
    · rw [accepted_cons_of_rejected h, perform_of_rejected h]
      simp

/-- Wraps in a row, each around what the one before it left. -/
theorem run_wraps {b : Builder} {wrappers : List Wrapper} {q : QueryRoot Clause}
    (hw : ∀ outcome ∈ b.trace (wrappers.map fun w => .step (.wrap w)), outcome.2 = none)
    (hq : b.document.query = some q) :
    ∃ q', (b.run (wrappers.map fun w => .step (.wrap w))).document.query = some q' ∧
      q'.finalized.toValue = wrappers.foldl Wrapper.around q.finalized.toValue := by
  induction wrappers generalizing b q with
  | nil => exact ⟨q, hq, rfl⟩
  | cons w rest ih =>
    obtain ⟨hdone, hrest⟩ := List.forall_mem_cons.1 hw
    obtain ⟨-, hquery⟩ := query_perform_wrap (check_of_perform_wrap hdone) hq
    exact ih hrest hquery

/-- **What is sent after a wrap.** A builder is wrapped, any number of times. The last wrapper holds
the query that the builder would have sent just before that wrap, and its body stays as it is as
long as no step replaces the query. If none of the steps that are done installs the bool query, the
wrapper is sent alone. Otherwise what is sent depends on what the same steps build on a new builder:
if that is the query that matches everything, this query is sent, and else it is a bool query, and
is sent beside the wrapper. -/
theorem wrapped_query (config : Config) (calls : List Call) (inner : List Wrapper) (w : Wrapper)
    (later : List Step) :
    let b := (start config).run calls
    let before := b.run (inner.map fun v => .step (.wrap v))
    let wrapped := before.perform (.step (.wrap w))
    let after := wrapped.1.run (later.map .step)
    let alone := (start config).run (later.map .step)
    let matchAll : Value := .single "match_all" (.obj [])
    let installed := ∃ s, Call.step s ∈ wrapped.1.accepted (later.map .step) ∧ s.installsBool = true
    (∀ outcome ∈ b.trace (inner.map fun v => .step (.wrap v)), outcome.2 = none) →
    wrapped.2 = none → (∀ s ∈ later, s.replacesQuery = false) →
    ∃ first sent, b.toValue.at? ["query"] = some first ∧ before.toValue.at? ["query"] = some sent ∧
      sent = inner.foldl Wrapper.around first ∧ (w.body sent).at? [w.innerKey] = some sent ∧
      (∀ made, made <+: later →
        (wrapped.1.run (made.map .step)).document.toValue.at? ["query", w.kind] =
          some (w.body sent)) ∧
      (¬ installed → after.toValue.at? ["query"] = some (.single w.kind (w.body sent))) ∧
      (installed →
        (alone.toValue.at? ["query"] = some matchAll →
          after.toValue.at? ["query"] = some matchAll) ∧
        (alone.toValue.at? ["query"] ≠ some matchAll → ∃ bool,
          alone.toValue.at? ["query"] = some (.single "bool" bool) ∧
          after.toValue.at? ["query"] = some (.obj [(w.kind, w.body sent), ("bool", bool)]))) := by
  intro b before wrapped after alone matchAll installed hinner hw hl
  have hreached : b.document.QueryReached config fun _ => True :=
    queryReached_run fun call _ => Call.adopts_of_forall (fun _ => trivial) call
  obtain ⟨q, hq, -⟩ := hreached
  obtain ⟨q', hq', hstack⟩ := run_wraps hinner hq
  obtain ⟨-, hquery⟩ := query_perform_wrap (check_of_perform_wrap hw) hq'
  have hconfig : wrapped.1.config = config := by
    rw [config_perform, config_run, config_run]
    rfl
  have hfirst : Beside w.kind (w.body q'.finalized.toValue) false wrapped.1 (start config) :=
    ⟨hconfig.symm, _, _, hquery, rfl, .apart⟩
  have hlast := hfirst.run_steps hl
  have hkind : w.kind ≠ QueryRoot.boolKey := w.kind_ne_boolKey
  refine ⟨q.finalized.toValue, q'.finalized.toValue, at?_sent hq, at?_sent hq', hstack,
    w.at?_innerKey _, ?_, ?_, ?_⟩
  · intro made hm
    obtain ⟨-, q₁, _, hq₁, -, hbeside⟩ := hfirst.run_steps fun s hs => hl s (hm.subset hs)
    rw [Document.at?_query hq₁]
    exact hbeside.at?_kind hkind
  · intro hnone
    have hany : later.any (·.installs wrapped.1.config) = false :=
      Bool.eq_false_iff.2 fun hany => hnone (any_installs_iff.1 hany)
    rw [hany, Bool.or_false] at hlast
    obtain ⟨-, q₁, _, hq₁, -, hbeside⟩ := hlast
    rw [at?_sent hq₁, hbeside.toValue_finalized_apart]
  · intro hsome
    rw [any_installs_iff.2 hsome] at hlast
    obtain ⟨-, q₁, q₂, hq₁, hq₂, hbeside⟩ := hlast
    rw [at?_sent hq₁, at?_sent hq₂]
    rcases hbeside.toValue_finalized_joined hkind with ⟨halone, hafter⟩ | ⟨bool, halone, hafter⟩
    · rw [halone, hafter]
      exact ⟨fun _ => rfl, fun hne => absurd rfl hne⟩
    · rw [halone, hafter]
      exact ⟨fun he => absurd (Option.some.inj he) (QueryRoot.single_boolKey_ne bool),
        fun _ => ⟨bool, rfl, rfl⟩⟩

/-- A builder is wrapped twice. A clause that is added then is sent beside the wrapper. When nothing
but the bool query is asked for, the wrapper is lost. -/
theorem wrapped_query_twice :
    let searched : Step := .clause (.textMatch "title" (.str "lean"))
    let inner : List Wrapper := [.constantScore ⟨0x3FF0000000000000⟩]
    let w : Wrapper := .functionScore [] {}
    let b := (start {}).run [.step searched]
    let wrapped := (b.run (inner.map fun v => .step (.wrap v))).perform (.step (.wrap w))
    let matchAll : Value := .single "match_all" (.obj [])
    (∀ outcome ∈ b.trace (inner.map fun v => .step (.wrap v)), outcome.2 = none) ∧
      wrapped.2 = none ∧
      (∃ sent bool, (wrapped.1.run [.step (.size 3), .step searched]).toValue.at? ["query"] =
        some (.obj [(w.kind, w.body sent), ("bool", bool)])) ∧
      (wrapped.1.run [.step .ensureBoolQuery]).toValue.at? ["query"] = some matchAll := by
  intro searched inner w b wrapped matchAll
  have hinner : ∀ outcome ∈ b.trace (inner.map fun v => .step (.wrap v)), outcome.2 = none :=
    List.forall_mem_singleton.2 rfl
  refine ⟨hinner, rfl, ?_, ?_⟩
  · obtain ⟨-, sent, -, -, -, -, -, -, h⟩ := wrapped_query {} [.step searched] inner w
      [.size 3, searched] hinner rfl (by decide)
    obtain ⟨-, hjoined⟩ := h ⟨searched, List.mem_cons_of_mem _ List.mem_cons_self, rfl⟩
    obtain ⟨bool, -, hafter⟩ := hjoined fun he =>
      QueryRoot.single_boolKey_ne _ (Option.some.inj he)
    exact ⟨sent, bool, hafter⟩
  · obtain ⟨-, sent, -, -, -, -, -, -, h⟩ := wrapped_query {} [.step searched] inner w
      [.ensureBoolQuery] hinner rfl (by decide)
    obtain ⟨hlost, -⟩ := h ⟨.ensureBoolQuery, List.mem_cons_self, rfl⟩
    exact hlost rfl

end Builder

end SearchRequest

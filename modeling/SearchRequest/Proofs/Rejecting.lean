import SearchRequest.Proofs.Callbacks
import SearchRequest.Proofs.Interleaving
import SearchRequest.Proofs.Naming

/-!
# What steps are rejected for

A step is rejected for its arguments. Only a step that extends an aggregation looks into the
document for something that may not be there; every other step is accepted or rejected alike by all
builders of one configuration, whatever they have been through.

A rejection says who raised it. A step with a callback is rejected by its own checks, or else
because a step of the callback is; that one may have a callback again, and so on inwards.

* `Step.Raised` — where a rejection comes from: the step whose own checks raised it, at the end of
  a chain of callbacks. `Step.apply_eq_error_iff_raised` says that every rejection comes from one.
* `Builder.rejection_eq_of_config` — two builders with one configuration and different histories.
* `Builder.rejection_names_culprit` — the rejection that a caller gets names the step that raised
  it.
-/

namespace SearchRequest

open Checked (Names)

/-! ## Steps that look nothing up -/

namespace Step

/-- The step looks for an aggregation in the document. -/
def looksUp : Step → Bool
  | subAggregate .. => true
  | _ => false

variable {config : Config} {d : Document} {s : Step} {r : Rejection}

/-- A step that looks nothing up is done once its arguments have passed. -/
theorem exists_apply_of_edit {e : Edit} (hs : s.looksUp = false) (h : s.edit config = .ok e) :
    ∃ d', e.apply d = .ok d' := by
  cases asks_of_edit h with
  | subAggregate => cases hs
  | _ => exact ⟨_, rfl⟩

theorem apply_eq_error_iff_edit (hs : s.looksUp = false) :
    s.apply config d = .error r ↔ s.edit config = .error r := by
  refine Checked.bind_eq_error_iff.trans (or_iff_left ?_)
  rintro ⟨e, he, hr⟩
  obtain ⟨d', hd⟩ := exists_apply_of_edit (d := d) hs he
  rw [hd] at hr
  cases hr

end Step

namespace Builder

variable {b b' : Builder} {s : Step} {r : Rejection}

/-- Steps in a row are rejected as the steps of a callback would be. -/
theorem performSteps_eq_some_iff {steps : List Step} :
    (b.performSteps steps).2 = some r ↔ Step.runAll b.config steps b.document = .error r := by
  rw [runAll_eq]
  rcases (b.performSteps steps).2 with _ | r' <;> simp

theorem perform_step_eq_some_iff :
    (b.perform (.step s)).2 = some r ↔ s.apply b.config b.document = .error r := by
  refine performSteps_eq_some_iff.trans ?_
  rw [Step.runAll_cons]
  refine Checked.bind_eq_error_iff.trans (or_iff_left ?_)
  rintro ⟨d, -, hd⟩
  cases hd

/-- A step that looks nothing up is rejected by both builders, for the same reason, or by
neither. -/
theorem perform_rejection_eq (hc : b.config = b'.config) (hs : s.looksUp = false) :
    (b.perform (.step s)).2 = (b'.perform (.step s)).2 := by
  refine Option.ext fun r => ?_
  calc (b.perform (.step s)).2 = some r
      ↔ s.edit b.config = .error r :=
        perform_step_eq_some_iff.trans (Step.apply_eq_error_iff_edit hs)
    _ ↔ s.edit b'.config = .error r := by rw [hc]
    _ ↔ (b'.perform (.step s)).2 = some r :=
        (perform_step_eq_some_iff.trans (Step.apply_eq_error_iff_edit hs)).symm

/-- **Arguments decide, not history.** A step that extends no aggregation is rejected by two
builders of one configuration, and for the same reason, or by neither; in its callbacks it may
extend aggregations. So a run of such steps has the same outcomes on both. -/
theorem rejection_eq_of_config (hc : b.config = b'.config) :
    (∀ s : Step, s.looksUp = false → (b.perform (.step s)).2 = (b'.perform (.step s)).2) ∧
      ∀ steps : List Step, (∀ s ∈ steps, s.looksUp = false) →
        b.outcomes steps = b'.outcomes steps := by
  refine ⟨fun s hs => perform_rejection_eq hc hs, fun steps hsteps => ?_⟩
  induction steps generalizing b b' with
  | nil => rfl
  | cons s rest ih =>
    obtain ⟨hs, hrest⟩ := List.forall_mem_cons.1 hsteps
    have hc' : (b.perform (.step s)).1.config = (b'.perform (.step s)).1.config := by
      rw [config_perform, config_perform, hc]
    rw [outcomes, outcomes, perform_rejection_eq hc hs, ih hc' hrest]

/-- The aggregation that the callback extends is there in one of the builders only, and not in the
sub-builder of the callback. -/
theorem rejection_eq_of_config_examples :
    let grouped := (start {}).run [.step (.aggregate (.terms "kinds" "kind" 5)), .step .matchAll]
    let child : Step := .subAggregate "kinds" "prices" (.obj [])
    (start {}).config = grouped.config ∧
      ((start {}).perform (.step (.should [child]))).2 =
        (grouped.perform (.step (.should [child]))).2 ∧
      (start {}).outcomes [.size 3, .should [child], .size 20000] =
        grouped.outcomes [.size 3, .should [child], .size 20000] := by
  intro grouped child
  have hconfig : (start {}).config = grouped.config := rfl
  obtain ⟨hstep, hrun⟩ := rejection_eq_of_config hconfig
  exact ⟨hconfig, hstep _ rfl, hrun _ (by simp [Step.looksUp])⟩

/-- Extending an aggregation does depend on the history. -/
example :
    let grouped := (start {}).run [.step (.aggregate (.terms "kinds" "kind" 5))]
    let child : Call := .step (.subAggregate "kinds" "prices" (.obj []))
    (grouped.perform child).2 = none ∧
      ((start {}).perform child).2 =
        some ((Fault.aggregationMissing "kinds").reject "kinds" "sub_aggregate") := ⟨rfl, rfl⟩

end Builder

/-! ## Own checks and callbacks -/

namespace Step

/-- The callback of a step that has one. -/
def callback? : Step → Option (List Step)
  | should steps | mustNot steps | embed _ _ steps => some steps
  | _ => none

/-- The checks of a step itself, on a document. Those of its callback are left out. -/
def ownCheck (config : Config) (d : Document) : Step → Checked Unit
  | should _ | mustNot _ => .ok ()
  | embed link label _ => link.check label
  | s => (s.apply config d).map fun _ => ()

variable {config : Config} {d : Document} {s : Step} {r : Rejection}

/-- Without a callback, all checks of a step are its own. -/
theorem ownCheck_of_callback?_eq_none (hs : s.callback? = none) :
    s.ownCheck config d = (s.apply config d).map fun _ => () := by
  cases s with
  | should | mustNot | embed => cases hs
  | _ => rfl

/-- **A step is rejected** by its own checks or, when they pass, because its callback is. -/
theorem apply_eq_error_iff :
    s.apply config d = .error r ↔
      s.ownCheck config d = .error r ∨
        s.ownCheck config d = .ok () ∧
          ∃ steps, s.callback? = some steps ∧ runAll config steps .fresh = .error r := by
  rcases hs : s.callback? with _ | steps
  · rw [ownCheck_of_callback?_eq_none hs, Checked.map_eq_error_iff]
    simp
  · cases s with
    | should steps' | mustNot steps' =>
      obtain rfl := Option.some.inj hs
      rw [apply_eq_error_iff_edit rfl, edit, Checked.map_eq_error_iff]
      simp [ownCheck]
    | embed link label steps' =>
      obtain rfl := Option.some.inj hs
      rw [apply_eq_error_iff_edit rfl, edit, Checked.bind_eq_error_iff]
      simp [ownCheck, Functor.map, Checked.map_eq_error_iff]
    | _ => cases hs

/-- What is wrong with the arguments of a step is reported in the name of the step, unless it is the
callback. -/
theorem names_edit (hs : s.callback? = none) : Names s.name (s.edit config) := by
  cases s with
  | should | mustNot | embed => cases hs
  | clause call => exact .map (call.names_check config)
  | minimumShouldMatch | ensureBoolQuery | matchAll | reset | sourceEnabled | trackTotalHits =>
    exact .ok _
  | wrap wrapper => exact .bind wrapper.names_check fun _ _ => .ok _
  | setQuery query => exact .map (QueryRoot.names_adopt Clause.raw query)
  | offset given => exact .map (Argument.names_offset _ given)
  | size given => exact .map (Argument.names_size _ given config.maxResultWindow)
  | sort field order =>
    exact .bind (names_require _ _ field _) fun _ _ =>
      .bind (SortOrder.names_parse order _) fun _ _ => .ok _
  | sortWith field options =>
    exact .bind (names_require _ _ field _) fun _ _ =>
      .bind (Argument.names_optional _ (fun _ => names_require _ _ _ _) options.mode) fun _ _ =>
        .ok _
  | source fields | highlight fields =>
    exact .bind (Argument.names_stringList _ fields _) fun _ _ => .ok _
  | highlightField field =>
    exact .bind (names_require _ _ field _) fun _ _ =>
      .bind (names_require _ _ field _) fun _ _ => .ok _
  | minScore | searchAfter => exact .bind (names_require _ _ _ _) fun _ _ => .ok _
  | aggregate call => exact .map call.names_check
  | subAggregate parent name =>
    exact .bind (names_require _ _ "name" _) fun _ _ =>
      .bind (names_require _ _ "name" _) fun _ _ =>
        .bind (names_require _ _ name _) fun _ _ => .ok _

/-- The look-up of a step is reported in the name of the step, too. -/
theorem names_apply (hs : s.callback? = none) : Names s.name (s.apply config d) := by
  intro r hr
  rcases Checked.bind_eq_error_iff.1 hr with hedit | ⟨e, he, hr⟩
  · exact names_edit hs r hedit
  · cases asks_of_edit he with
    | subAggregate =>
      -- the one edit that can still fail finds no aggregation to extend
      rw [Edit.apply] at hr
      split at hr
      · cases hr
      · exact Names.reject _ _ "sub_aggregate" r hr
    | _ => cases hr

theorem names_ownCheck (s : Step) : Names s.name (s.ownCheck config d) := by
  rcases hs : s.callback? with _ | steps
  · rw [ownCheck_of_callback?_eq_none hs]
    exact .map (names_apply hs)
  · cases s with
    | should | mustNot => exact .ok ()
    | embed link label =>
      cases link with
      | nested => exact names_require _ _ label _
      | hasChild | hasParent => exact names_require _ _ _ _
    | _ => cases hs

/-! ## Where rejections come from -/

/-- **Where a rejection comes from**: the step is rejected by its own checks, or else by the first
step of its callback that is rejected, in which the same holds again. -/
inductive Raised (config : Config) : Document → Step → Step → Rejection → Prop where
  | own {d : Document} {s : Step} {r : Rejection} (h : s.ownCheck config d = .error r) :
    Raised config d s s r
  | inside {d sub : Document} {s inner culprit : Step} {before after : List Step} {r : Rejection}
    (ho : s.ownCheck config d = .ok ()) (hs : s.callback? = some (before ++ inner :: after))
    (hb : runAll config before .fresh = .ok sub) (hi : Raised config sub inner culprit r) :
    Raised config d s culprit r

/-- **Rejections name the step that raised them.** -/
theorem Raised.context_eq {culprit : Step} (h : Raised config d s culprit r) :
    r.context = culprit.name := by
  induction h with
  | own h => exact names_ownCheck _ _ h
  | inside _ _ _ _ ih => exact ih

/-- Steps in a row are rejected when one of them is, once those before it are done. -/
theorem runAll_append_of_error {before after : List Step} {d d' : Document}
    (hb : runAll config before d = .ok d') (h : s.apply config d' = .error r) :
    runAll config (before ++ s :: after) d = .error r := by
  induction before generalizing d with
  | nil =>
    obtain rfl := Except.ok.inj hb
    rw [List.nil_append, runAll_cons, h]
    rfl
  | cons first rest ih =>
    rw [runAll_cons] at hb
    obtain ⟨d₁, hfirst, hrest⟩ := Checked.bind_eq_ok_iff.1 hb
    rw [List.cons_append, runAll_cons, hfirst]
    exact ih hrest

theorem Raised.apply_eq_error {culprit : Step} (h : Raised config d s culprit r) :
    s.apply config d = .error r := by
  induction h with
  | own h => exact apply_eq_error_iff.2 (.inl h)
  | inside ho hs hb _ ih =>
    exact apply_eq_error_iff.2 (.inr ⟨ho, _, hs, runAll_append_of_error hb ih⟩)

mutual

/-- A rejected step has a culprit: by induction on the step, inwards through the callbacks. -/
theorem exists_raised (s : Step) {d : Document} {r : Rejection}
    (h : s.apply config d = .error r) : ∃ culprit, Raised config d s culprit r := by
  rcases apply_eq_error_iff.1 h with how | ⟨ho, steps, hs, hr⟩
  · exact ⟨s, .own how⟩
  · cases s with
    | should steps' | mustNot steps' | embed _ _ steps' =>
      obtain rfl := Option.some.inj hs
      obtain ⟨before, inner, after, sub, culprit, rfl, hb, hi⟩ := exists_raised_of_runAll _ hr
      exact ⟨culprit, .inside ho rfl hb hi⟩
    | _ => cases hs
termination_by structural s

/-- Rejected steps in a row have a first one that is rejected, and that one has a culprit. -/
theorem exists_raised_of_runAll (steps : List Step) {d : Document} {r : Rejection}
    (h : runAll config steps d = .error r) :
    ∃ before inner after sub culprit, steps = before ++ inner :: after ∧
      runAll config before d = .ok sub ∧ Raised config sub inner culprit r := by
  cases steps with
  | nil => cases h
  | cons s rest =>
    rw [runAll_cons] at h
    rcases Checked.bind_eq_error_iff.1 h with hs | ⟨d', hd, hrest⟩
    · obtain ⟨culprit, hculprit⟩ := exists_raised s hs
      exact ⟨[], s, rest, d, culprit, rfl, rfl, hculprit⟩
    · obtain ⟨before, inner, after, sub, culprit, rfl, hb, hi⟩ := exists_raised_of_runAll rest hrest
      refine ⟨s :: before, inner, after, sub, culprit, rfl, ?_, hi⟩
      rw [runAll_cons, hd]
      exact hb
termination_by structural steps

end

/-- **Every rejection comes from a step**, and every step that raises one is heard. -/
theorem apply_eq_error_iff_raised :
    s.apply config d = .error r ↔ ∃ culprit, Raised config d s culprit r :=
  ⟨exists_raised s, fun ⟨_, h⟩ => h.apply_eq_error⟩

end Step

/-- Only the general call reports under its name: the calls that hand an aggregation on to it are
never rejected there. -/
theorem AggregationCall.eq_general_of_context {call : AggregationCall} {r : Rejection}
    (h : call.check = .error r) (hr : r.context = "aggregate") :
    ∃ name spec, call = .general name spec := by
  have hname : call.callName = "aggregate" := (call.names_check r h).symm.trans hr
  cases call with
  | general name spec => exact ⟨name, spec, rfl⟩
  | metric m => cases m <;> simp [callName, Metric.kind] at hname
  | _ => simp [callName] at hname

namespace Builder

/-- **Rejections name the step that raised them.** When the checks of a step itself find something
wrong, the rejection bears its name. When they pass, a callback decides, and the rejection is the
one that stops it on a new builder. So every rejection comes from a step at the end of a chain of
callbacks, the first of its callback to be rejected, and bears the name of that step. What a helper
for aggregations hands on to the general call is not rejected there. -/
theorem rejection_names_culprit (b : Builder) (s : Step) :
    let rejection := (b.perform (.step s)).2
    (∀ r, s.ownCheck b.config b.document = .error r → rejection = some r ∧ r.context = s.name) ∧
      (∀ steps, s.ownCheck b.config b.document = .ok () → s.callback? = some steps →
        rejection = ((start b.config).performSteps steps).2) ∧
      (∀ r, rejection = some r ↔
        ∃ culprit, s.Raised b.config b.document culprit r ∧ r.context = culprit.name) ∧
      ∀ call r, s = .aggregate call → rejection = some r → r.context = "aggregate" →
        ∃ name spec, call = .general name spec := by
  intro rejection
  have hrejected (r : Rejection) : rejection = some r ↔ s.apply b.config b.document = .error r :=
    perform_step_eq_some_iff
  refine ⟨fun r hr => ?_, fun steps ho hs => ?_, fun r => ?_, ?_⟩
  · exact ⟨(hrejected r).2 (Step.apply_eq_error_iff.2 (.inl hr)), s.names_ownCheck r hr⟩
  · refine Option.ext fun r => ?_
    rw [hrejected, Step.apply_eq_error_iff, performSteps_eq_some_iff]
    simp [ho, hs, start]
  · rw [hrejected, Step.apply_eq_error_iff_raised]
    exact exists_congr fun _ => (and_iff_left_of_imp Step.Raised.context_eq).symm
  · rintro call r rfl hr hcontext
    have hedit := (Step.apply_eq_error_iff_edit rfl).1 ((hrejected r).1 hr)
    exact call.eq_general_of_context (Checked.map_eq_error_iff.1 hedit) hcontext

/-- Of a callback in a callback, a direction to sort in is rejected before a page is. -/
example :
    let callback : List Step := [.size 3, .should [.sort "year" "up", .size 20000], .offset (-1)]
    ((start {}).perform (.step (.embed .nested "lines" callback))).2 =
      some ((Fault.sortOrderUnknown "up").reject "order" "sort") := rfl

end Builder

end SearchRequest

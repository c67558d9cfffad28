import SearchRequest.Proofs.Calls

/-!
# Rejected calls leave no trace

The action of a single step makes all its checks, those of its callback included, before it writes
to the builder (`Step.run_action`). So a rejected step leaves the builder as it was.

A call that stands for several steps could be rejected half-way. None ever is: behind its first
step such a call attaches fixed aggregations (`PlainSteps`), which are attached to every document
(`Step.Certain`). So a rejected call leaves the builder as it was, too, and the calls that were
rejected in a run can as well be left out of it.
-/

namespace SearchRequest

/-! ## Steps that are never rejected -/

/-- The step is done, whatever the document. -/
def Step.Certain (config : Config) (s : Step) : Prop := ∀ d, ∃ d', s.apply config d = .ok d'

/-- Attaching an aggregation at the top is certain once its arguments have passed. -/
theorem Step.certain_aggregate {config : Config} {call : AggregationCall} {r : String × Value}
    (h : call.check = .ok r) : (Step.aggregate call).Certain config := by
  intro d
  refine ⟨d.attach r.1 r.2, apply_eq_ok_iff.2 ⟨.attach r.1 r.2, ?_, rfl⟩⟩
  rw [edit, h]
  rfl

/-- Only the first step of a call can be rejected. -/
def OnlyFirstRejected (config : Config) (steps : List Step) : Prop :=
  ∀ s ∈ steps.tail, s.Certain config

theorem Call.onlyFirstRejected (config : Config) {call : Call} {steps : List Step}
    (h : call.steps = .ok steps) : OnlyFirstRejected config steps := by
  rcases call.steps_cases h with ⟨s, -, rfl⟩ | ⟨first, rest, rfl, -, hrest⟩
  · exact fun _ hs => absurd hs List.not_mem_nil
  · intro s hs
    obtain ⟨aggregation, r, rfl, hr⟩ := hrest s hs
    exact Step.certain_aggregate hr

/-! ## Rejected calls -/

namespace Builder

theorem exists_step_of_certain {b : Builder} {s : Step} (h : s.Certain b.config) :
    ∃ d, b.step s = .ok { b with document := d } := by
  obtain ⟨d, hd⟩ := h b.document
  exact ⟨d, step_eq_ok_iff.2 ⟨d, hd, rfl⟩⟩

/-- Steps that are all certain are done to the last. -/
theorem performSteps_of_certain {b : Builder} {steps : List Step}
    (h : ∀ s ∈ steps, s.Certain b.config) : (b.performSteps steps).2 = none := by
  induction steps generalizing b with
  | nil => rfl
  | cons s rest ih =>
    obtain ⟨d, hd⟩ := exists_step_of_certain (h s List.mem_cons_self)
    rw [performSteps_of_ok hd]
    exact ih fun s' hs' => h s' (List.mem_cons_of_mem s hs')

/-- Steps of which only the first can be rejected have done nothing when one is. -/
theorem performSteps_of_rejected {b : Builder} {steps : List Step} {r : Rejection}
    (h : OnlyFirstRejected b.config steps) (hr : (b.performSteps steps).2 = some r) :
    (b.performSteps steps).1 = b := by
  cases steps with
  | nil => rfl
  | cons s rest =>
    rcases hs : b.step s with r' | b'
    · rw [performSteps_of_error hs]
    · -- past the first step nothing is rejected, so this case does not arise
      rw [performSteps_of_ok hs] at hr
      obtain ⟨d, -, rfl⟩ := step_eq_ok_iff.1 hs
      have hn : (performSteps ⟨b.config, d⟩ rest).2 = none := performSteps_of_certain h
      rw [hn] at hr
      cases hr

/-- **Rejected calls** leave the builder as it was. -/
theorem perform_of_rejected {b : Builder} {call : Call} {r : Rejection}
    (h : (b.perform call).2 = some r) : (b.perform call).1 = b := by
  rw [perform_eq] at h ⊢
  rcases hs : call.steps with r' | steps
  · rfl
  · rw [hs] at h
    exact performSteps_of_rejected (call.onlyFirstRejected b.config hs) h

/-! ## Runs without their rejected calls -/

theorem accepted_cons_of_done {b : Builder} {call : Call} {rest : List Call}
    (h : (b.perform call).2 = none) :
    b.accepted (call :: rest) = call :: (b.perform call).1.accepted rest := by
  rw [accepted, h]

theorem accepted_cons_of_rejected {b : Builder} {call : Call} {rest : List Call} {r : Rejection}
    (h : (b.perform call).2 = some r) : b.accepted (call :: rest) = b.accepted rest := by
  rw [accepted, h, perform_of_rejected h]

/-- **A run does not show its rejected calls**: with them left out it ends at the same builder, and
no call that remains is rejected in the shortened run. -/
theorem run_accepted (b : Builder) (calls : List Call) :
    b.run (b.accepted calls) = b.run calls ∧
      ∀ outcome ∈ b.trace (b.accepted calls), outcome.2 = none := by
  induction calls generalizing b with
  | nil => exact ⟨rfl, fun _ h => absurd h List.not_mem_nil⟩
  | cons call rest ih =>
    rcases h : (b.perform call).2 with _ | r
    · obtain ⟨hrun, htrace⟩ := ih (b.perform call).1
      rw [accepted_cons_of_done h]
      refine ⟨hrun, ?_⟩
      intro outcome ho
      rcases List.mem_cons.1 ho with rfl | ho
      · exact h
      · exact htrace outcome ho
    · rw [accepted_cons_of_rejected h, run, perform_of_rejected h]
      exact ih b

end Builder

end SearchRequest

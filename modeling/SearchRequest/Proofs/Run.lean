import SearchRequest.Proofs.Actions

/-!
# Runs of a builder

A run is a list of calls made one after the other on one builder. A rejected call is reported, and
the run goes on with the next.

* `Builder.run`, `Builder.trace` — the builder at the end of a run, and what every call of the run
  led to.
* `Builder.accepted` — the calls of a run that were not rejected.
* `Builder.run_preserves` — a property of documents that every step keeps holds at the end of a run
  if it held at its start. The configuration never changes, so a step may use it.
-/

namespace SearchRequest

/-! ## Checks in a row -/

namespace Checked

variable {α β : Type}

/-- Two checks in a row pass when the first one does and the second one does on its result. -/
theorem bind_eq_ok_iff {x : Checked α} {f : α → Checked β} {b : β} :
    (x >>= f) = .ok b ↔ ∃ a, x = .ok a ∧ f a = .ok b := by
  constructor
  · intro h
    rcases x with r | a
    · cases h
    · exact ⟨a, rfl, h⟩
  · rintro ⟨a, rfl, h⟩
    exact h

/-- A check whose result is worked on passes when the check does. -/
theorem map_eq_ok_iff {x : Checked α} {f : α → β} {b : β} :
    x.map f = .ok b ↔ ∃ a, x = .ok a ∧ f a = b := by
  constructor
  · intro h
    rcases x with r | a
    · cases h
    · exact ⟨a, rfl, Except.ok.inj h⟩
  · rintro ⟨a, rfl, rfl⟩
    rfl

/-- Two checks in a row find something wrong when the first one does, or the second one on the
result of the first. -/
theorem bind_eq_error_iff {x : Checked α} {f : α → Checked β} {r : Rejection} :
    (x >>= f) = .error r ↔ x = .error r ∨ ∃ a, x = .ok a ∧ f a = .error r := by
  constructor
  · intro h
    rcases x with r' | a
    · exact .inl (congrArg Except.error (Except.error.inj h))
    · exact .inr ⟨a, rfl, h⟩
  · rintro (rfl | ⟨a, rfl, h⟩)
    · rfl
    · exact h

/-- A check whose result is worked on finds wrong what the check does. -/
theorem map_eq_error_iff {x : Checked α} {f : α → β} {r : Rejection} :
    x.map f = .error r ↔ x = .error r := by
  constructor
  · intro h
    rcases x with r' | a
    · exact congrArg Except.error (Except.error.inj h)
    · cases h
  · rintro rfl
    rfl

end Checked

/-- A step is done when its edit passes and can be applied. -/
theorem Step.apply_eq_ok_iff {config : Config} {d d' : Document} {s : Step} :
    s.apply config d = .ok d' ↔ ∃ e, s.edit config = .ok e ∧ e.apply d = .ok d' :=
  Checked.bind_eq_ok_iff

/-! ## Runs -/

namespace Builder

/-- The builder after a step. -/
def step (b : Builder) (s : Step) : Checked Builder :=
  (s.apply b.config b.document).map ({ b with document := · })

/-- The builder after some calls, the rejected ones skipped. -/
def run : Builder → List Call → Builder
  | b, [] => b
  | b, call :: rest => run (b.perform call).1 rest

/-- What each call of a run leads to: the builder after it, and the rejection if there was one. -/
def trace : Builder → List Call → List (Builder × Option Rejection)
  | _, [] => []
  | b, call :: rest => b.perform call :: trace (b.perform call).1 rest

/-- The calls of a run that are not rejected. -/
def accepted : Builder → List Call → List Call
  | _, [] => []
  | b, call :: rest =>
    match (b.perform call).2 with
    | none => call :: accepted (b.perform call).1 rest
    | some _ => accepted (b.perform call).1 rest

/-- A call is its own checks, and behind them its steps. -/
theorem perform_eq (b : Builder) (call : Call) :
    b.perform call =
      match call.steps with
      | .ok steps => b.performSteps steps
      | .error r => (b, some r) := by
  rw [perform, Call.action]
  rcases call.steps with r | steps <;> rfl

/-- The outcome of steps that begin with one that is done. -/
theorem performSteps_of_ok {b b' : Builder} {s : Step} {rest : List Step} (h : b.step s = .ok b') :
    b.performSteps (s :: rest) = b'.performSteps rest := by
  obtain ⟨d, hd, rfl⟩ := Checked.map_eq_ok_iff.1 h
  rw [performSteps, Step.actions, EStateM.run_bind, s.run_action, hd]
  rfl

/-- The outcome of steps that begin with a rejected one. -/
theorem performSteps_of_error {b : Builder} {s : Step} {rest : List Step} {r : Rejection}
    (h : b.step s = .error r) : b.performSteps (s :: rest) = (b, some r) := by
  have hs := Checked.map_eq_error_iff.1 h
  rw [performSteps, Step.actions, EStateM.run_bind, s.run_action, hs]
  rfl

/-- A step changes the document and nothing else. -/
theorem step_eq_ok_iff {b b' : Builder} {s : Step} :
    b.step s = .ok b' ↔
      ∃ d, s.apply b.config b.document = .ok d ∧ ({ b with document := d } : Builder) = b' :=
  Checked.map_eq_ok_iff

/-- A step that is done, from its edit. -/
theorem perform_of_edit {b : Builder} {s : Step} {e : Edit} {d : Document}
    (h : s.edit b.config = .ok e) (hd : e.apply b.document = .ok d) :
    b.perform (.step s) = ({ b with document := d }, none) :=
  performSteps_of_ok (step_eq_ok_iff.2 ⟨d, Step.apply_eq_ok_iff.2 ⟨e, h, hd⟩, rfl⟩)

/-- A step whose arguments are refused. -/
theorem perform_of_edit_error {b : Builder} {s : Step} {r : Rejection}
    (h : s.edit b.config = .error r) : b.perform (.step s) = (b, some r) := by
  have hs : b.step s = .error r := by
    rw [step, Step.apply, h]
    rfl
  exact performSteps_of_error hs

/-- A step that is not rejected is done. -/
theorem apply_of_performSteps {b : Builder} {s : Step} (h : (b.performSteps [s]).2 = none) :
    s.apply b.config b.document = .ok (b.performSteps [s]).1.document := by
  rcases hs : b.step s with r | b'
  · rw [performSteps_of_error hs] at h
    cases h
  · obtain ⟨d, hd, rfl⟩ := step_eq_ok_iff.1 hs
    rw [performSteps_of_ok hs]
    exact hd

/-- What every step of a list keeps, the list keeps, as far as it gets. The configuration is
kept in any case. -/
theorem performSteps_preserves {P : Document → Prop} {b : Builder} {steps : List Step}
    (hstep : ∀ s ∈ steps, ∀ d d', P d → s.apply b.config d = .ok d' → P d')
    (hb : P b.document) :
    P (b.performSteps steps).1.document ∧ (b.performSteps steps).1.config = b.config := by
  induction steps generalizing b with
  | nil => exact ⟨hb, rfl⟩
  | cons s rest ih =>
    rcases h : b.step s with r | b'
    · rw [performSteps_of_error h]
      exact ⟨hb, rfl⟩
    · rw [performSteps_of_ok h]
      obtain ⟨d, hd, rfl⟩ := step_eq_ok_iff.1 h
      exact ih (fun s' hs' => hstep s' (List.mem_cons_of_mem s hs'))
        (hstep s List.mem_cons_self _ _ hb hd)

/-- A call keeps what all the steps keep that it stands for. -/
theorem perform_preserves {P : Document → Prop} {b : Builder} {call : Call}
    (hstep : ∀ steps, call.steps = .ok steps → ∀ s ∈ steps, ∀ d d', P d →
      s.apply b.config d = .ok d' → P d')
    (hb : P b.document) :
    P (b.perform call).1.document ∧ (b.perform call).1.config = b.config := by
  rw [perform_eq]
  rcases h : call.steps with r | steps
  · exact ⟨hb, rfl⟩
  · exact performSteps_preserves (hstep steps h) hb

theorem config_perform (b : Builder) (call : Call) : (b.perform call).1.config = b.config :=
  (perform_preserves (P := fun _ => True) (fun _ _ _ _ _ _ _ _ => trivial) trivial).2

/-- **Invariants of runs.** What all steps of all calls keep holds at the end of a run if it held
at its start. -/
theorem run_preserves {P : Document → Prop} {b : Builder} {calls : List Call}
    (hstep : ∀ call ∈ calls, ∀ steps, call.steps = .ok steps → ∀ s ∈ steps, ∀ d d', P d →
      s.apply b.config d = .ok d' → P d')
    (hb : P b.document) :
    P (b.run calls).document ∧ (b.run calls).config = b.config := by
  induction calls generalizing b with
  | nil => exact ⟨hb, rfl⟩
  | cons call rest ih =>
    obtain ⟨hP, hc⟩ := perform_preserves (hstep call List.mem_cons_self) hb
    obtain ⟨hP', hc'⟩ := ih (b := (b.perform call).1)
      (fun c hm => by rw [hc]; exact hstep c (List.mem_cons_of_mem call hm)) hP
    exact ⟨hP', hc'.trans hc⟩

theorem config_run (b : Builder) (calls : List Call) : (b.run calls).config = b.config :=
  (run_preserves (P := fun _ => True) (fun _ _ _ _ _ _ _ _ _ _ => trivial) trivial).2

end Builder

end SearchRequest

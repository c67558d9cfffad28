import SearchRequest.Proofs.Run

/-!
# What calls stand for

A call is a step, or it belongs to a preset and stands for steps with fixed names and fields. The
presets are looked at twice in this file and need not be looked at again:

* The steps of a preset's call are of one shape, `PlainSteps`: a first step that adopts no raw
  query, and behind it aggregations that pass their checks. What is shown of a call as a whole is
  shown of single steps and of this shape, see `Call.steps_cases`.
* Each of these steps is one of a few, `Step.OfPreset`. What is shown of every step of a call is
  shown of the steps that callers give and of these, see `Call.ofPreset_steps`.
-/

namespace SearchRequest

/-! ## Raw queries on the way -/

namespace Step

mutual

/-- Every raw query that the step adopts, in its callbacks too, satisfies `A`. -/
def Adopts (A : Value → Prop) : Step → Prop
  | should steps => AllAdopt A steps
  | mustNot steps => AllAdopt A steps
  | embed _ _ steps => AllAdopt A steps
  | setQuery query => A query
  | _ => True
termination_by structural s => s

/-- Every raw query that the steps adopt, in their callbacks too, satisfies `A`. -/
def AllAdopt (A : Value → Prop) : List Step → Prop
  | [] => True
  | s :: rest => Adopts A s ∧ AllAdopt A rest
termination_by structural steps => steps

end

variable {A : Value → Prop}

theorem allAdopt_iff {steps : List Step} : AllAdopt A steps ↔ ∀ s ∈ steps, s.Adopts A := by
  induction steps with
  | nil => exact ⟨fun _ _ h => absurd h List.not_mem_nil, fun _ => trivial⟩
  | cons s rest ih => rw [AllAdopt, ih, List.forall_mem_cons]

mutual

/-- What holds of all values holds of the queries that a step adopts. -/
theorem adopts_of_forall (hA : ∀ v, A v) (s : Step) : s.Adopts A := by
  cases s with
  | should steps | mustNot steps | embed _ _ steps => exact allAdopt_of_forall hA steps
  | setQuery query => exact hA query
  | _ => trivial
termination_by structural s

/-- What holds of all values holds of the queries that steps adopt. -/
theorem allAdopt_of_forall (hA : ∀ v, A v) (steps : List Step) : AllAdopt A steps := by
  cases steps with
  | nil => trivial
  | cons s rest => exact ⟨adopts_of_forall hA s, allAdopt_of_forall hA rest⟩
termination_by structural steps

end

end Step

/-- Every raw query that the call adopts satisfies `A`. The presets adopt none. -/
def Call.Adopts (A : Value → Prop) : Call → Prop
  | step s => s.Adopts A
  | product _ | log _ | report _ | article _ => True

theorem Call.adopts_of_forall {A : Value → Prop} (hA : ∀ v, A v) (call : Call) :
    call.Adopts A := by
  cases call with
  | step s => exact Step.adopts_of_forall hA s
  | _ => trivial

/-! ## Calls of the presets -/

/-- A step that adopts no raw query, and behind it aggregations that pass their checks. -/
def PlainSteps (steps : List Step) : Prop :=
  ∃ first rest, steps = first :: rest ∧ (∀ A, first.Adopts A) ∧
    ∀ s ∈ rest, ∃ call r, s = .aggregate call ∧ call.check = .ok r

theorem PlainSteps.singleton {s : Step} (h : ∀ A, s.Adopts A) : PlainSteps [s] :=
  ⟨s, [], rfl, h, fun _ hs => absurd hs List.not_mem_nil⟩

section Presets

variable {steps : List Step}

theorem ProductCall.plainSteps {call : ProductCall} (h : call.steps = .ok steps) :
    PlainSteps steps := by
  cases call with
  | priceRange =>
    obtain ⟨_, -, h⟩ := Checked.bind_eq_ok_iff.1 h
    obtain ⟨_, -, h⟩ := Checked.bind_eq_ok_iff.1 h
    obtain rfl := Except.ok.inj h
    exact .singleton fun _ => trivial
  | minRating =>
    obtain ⟨_, -, h⟩ := Checked.bind_eq_ok_iff.1 h
    obtain rfl := Except.ok.inj h
    exact .singleton fun _ => trivial
  | withFacets =>
    -- the price bands and the average pass for their fixed names and fields
    obtain rfl := Except.ok.inj h
    refine ⟨_, _, rfl, fun _ => trivial, fun s hs => ?_⟩
    rcases List.mem_cons.1 hs with rfl | hs
    · exact ⟨_, _, rfl, rfl⟩
    · exact ⟨_, _, List.mem_singleton.1 hs, rfl⟩
  | _ =>
    obtain rfl := Except.ok.inj h
    exact .singleton fun _ => trivial

theorem LogCall.plainSteps {call : LogCall} (h : call.steps = .ok steps) : PlainSteps steps := by
  cases call with
  | timeRange =>
    obtain ⟨_, -, h⟩ := Checked.bind_eq_ok_iff.1 h
    obtain rfl := Except.ok.inj h
    exact .singleton fun _ => trivial
  | excludeService =>
    obtain rfl := Except.ok.inj h
    exact .singleton fun _ => ⟨trivial, trivial⟩
  | withTimeline =>
    -- the interval is checked by the first step; the levels pass for their fixed name and field
    obtain rfl := Except.ok.inj h
    exact ⟨_, _, rfl, fun _ => trivial, fun s hs => ⟨_, _, List.mem_singleton.1 hs, rfl⟩⟩
  | _ =>
    obtain rfl := Except.ok.inj h
    exact .singleton fun _ => trivial

theorem ReportCall.plainSteps {call : ReportCall} (h : call.steps = .ok steps) :
    PlainSteps steps := by
  cases call with
  | dateRange =>
    obtain ⟨_, -, h⟩ := Checked.bind_eq_ok_iff.1 h
    obtain rfl := Except.ok.inj h
    exact .singleton fun _ => trivial
  | _ =>
    obtain rfl := Except.ok.inj h
    exact .singleton fun _ => trivial

theorem ArticleCall.plainSteps {call : ArticleCall} (h : call.steps = .ok steps) :
    PlainSteps steps := by
  cases call with
  | publishedBetween | boostRecent =>
    obtain ⟨_, -, h⟩ := Checked.bind_eq_ok_iff.1 h
    obtain rfl := Except.ok.inj h
    exact .singleton fun _ => trivial
  | excludeDrafts =>
    obtain rfl := Except.ok.inj h
    exact .singleton fun _ => ⟨trivial, trivial⟩
  | _ =>
    obtain rfl := Except.ok.inj h
    exact .singleton fun _ => trivial

end Presets

/-- **The steps of a call**: the one step that it is, or plain steps. -/
theorem Call.steps_cases {call : Call} {steps : List Step} (h : call.steps = .ok steps) :
    (∃ s, call = .step s ∧ steps = [s]) ∨ PlainSteps steps := by
  cases call with
  | step s => exact .inl ⟨s, rfl, (Except.ok.inj h).symm⟩
  | product call => exact .inr (call.plainSteps h)
  | log call => exact .inr (call.plainSteps h)
  | report call => exact .inr (call.plainSteps h)
  | article call => exact .inr (call.plainSteps h)

/-- A call and its steps adopt the same. -/
theorem Call.allAdopt {A : Value → Prop} {call : Call} {steps : List Step} (ha : call.Adopts A)
    (h : call.steps = .ok steps) : Step.AllAdopt A steps := by
  rcases call.steps_cases h with ⟨s, rfl, rfl⟩ | ⟨first, rest, rfl, hfirst, hrest⟩
  · exact ⟨ha, trivial⟩
  · refine ⟨hfirst A, Step.allAdopt_iff.2 fun s hs => ?_⟩
    obtain ⟨aggregation, r, rfl, -⟩ := hrest s hs
    trivial

/-! ## Properties of all steps -/

/-- Every step that the call stands for has the property. -/
def AllSteps (P : Step → Prop) (checked : Checked (List Step)) : Prop :=
  ∀ steps, checked = .ok steps → ∀ s ∈ steps, P s

namespace AllSteps

variable {P : Step → Prop}

theorem ok {steps : List Step} (h : ∀ s ∈ steps, P s) : AllSteps P (.ok steps) := by
  intro steps' he
  obtain rfl := Except.ok.inj he
  exact h

theorem single {s : Step} (h : P s) : AllSteps P (.ok [s]) :=
  .ok (List.forall_mem_singleton.2 h)

theorem bind {α : Type} {x : Checked α} {f : α → Checked (List Step)}
    (h : ∀ a, AllSteps P (f a)) : AllSteps P (x >>= f) := by
  intro steps he
  obtain ⟨a, -, ha⟩ := Checked.bind_eq_ok_iff.1 he
  exact h a steps ha

end AllSteps

/-- The steps that presets make, with what they do not leave open. -/
inductive Step.OfPreset : Step → Prop where
  | clause (call : ClauseCall) : OfPreset (.clause call)
  | without (call : ClauseCall) : OfPreset (.mustNot [.clause call])
  | wrap (w : Wrapper) : OfPreset (.wrap w)
  | noHits : OfPreset (.size 0)
  | sort (field order : String) : OfPreset (.sort field order)
  | marks : OfPreset (.highlight ["title", "body"] ArticleCall.markOptions)
  | aggregate (call : AggregationCall) : OfPreset (.aggregate call)
  | subAggregate (parent name : String) (spec : Value) :
    OfPreset (.subAggregate parent name spec)

/-- **The steps of a call**: what is shown of the steps of presets is shown of all steps but those
that a caller gives. -/
theorem Call.ofPreset_steps (call : Call) :
    AllSteps (fun s => call = .step s ∨ s.OfPreset) call.steps := by
  cases call with
  | step s => exact .single (.inl rfl)
  | product call =>
    cases call with
    | priceRange => exact .bind fun _ => .bind fun _ => .single (.inr (.clause _))
    | minRating => exact .bind fun _ => .single (.inr (.clause _))
    | sortByPrice | sortByPopularity => exact .single (.inr (.sort _ _))
    | withFacets =>
      refine .ok fun s hs => .inr ?_
      simp only [List.mem_cons, List.not_mem_nil, or_false] at hs
      rcases hs with rfl | rfl | rfl <;> exact .aggregate _
    | _ => exact .single (.inr (.clause _))
  | log call =>
    cases call with
    | timeRange => exact .bind fun _ => .single (.inr (.clause _))
    | excludeService => exact .single (.inr (.without _))
    | newestFirst => exact .single (.inr (.sort _ _))
    | withTimeline =>
      refine .ok fun s hs => .inr ?_
      simp only [List.mem_cons, List.not_mem_nil, or_false] at hs
      rcases hs with rfl | rfl <;> exact .aggregate _
    | _ => exact .single (.inr (.clause _))
  | report call =>
    cases call with
    | aggregationsOnly => exact .single (.inr .noHits)
    | dateRange => exact .bind fun _ => .single (.inr (.clause _))
    | metricPerBucket => exact .single (.inr (.subAggregate _ _ _))
    | _ => exact .single (.inr (.aggregate _))
  | article call =>
    cases call with
    | publishedBetween => exact .bind fun _ => .single (.inr (.clause _))
    | excludeDrafts => exact .single (.inr (.without _))
    | highlightMatches => exact .single (.inr .marks)
    | boostRecent => exact .bind fun _ => .single (.inr (.wrap _))
    | _ => exact .single (.inr (.clause _))

end SearchRequest

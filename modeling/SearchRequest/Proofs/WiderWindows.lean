import SearchRequest.Proofs.Reports

/-!
# Wider windows

The window of a configuration is looked at in two places: by the check of a page size, which
callbacks make with the window of the builder that runs them, and by the report. Both ask that
something does not exceed it. So nothing that is done under one window is rejected under a wider
one, and what it leads to is the same.

* `Config.Widens` — a wider window beside the same suffix.
* `Step.edit_widens` — steps, and those of their callbacks, at whatever depth.
* `Builder.run_widened` — whole runs, and reports.
-/

namespace SearchRequest

/-- The other configuration has the same suffix, and a window that is at least as wide. -/
structure Config.Widens (config wide : Config) : Prop where
  suffix : wide.keywordSuffix = config.keywordSuffix
  window : config.maxResultWindow ≤ wide.maxResultWindow

variable {config wide : Config}

/-! ## Steps -/

/-- A call that adds a clause does not look at the window. -/
theorem ClauseCall.check_widens (h : config.Widens wide) (call : ClauseCall) :
    call.check wide = call.check config := by
  cases call with
  | term field value => simp only [check, Config.keywordField, h.suffix]
  | _ => rfl

namespace Step

mutual

/-- **What a step asks for** under one window, it asks for under a wider one. -/
theorem edit_widens (h : config.Widens wide) (s : Step) {e : Edit} (he : s.edit config = .ok e) :
    s.edit wide = .ok e := by
  cases s with
  | clause call =>
    rw [edit, call.check_widens h]
    exact he
  | should steps | mustNot steps =>
    obtain ⟨d, hd, rfl⟩ := Checked.map_eq_ok_iff.1 he
    rw [edit, runAll_widens h steps hd]
    rfl
  | embed link label steps =>
    obtain ⟨_, hl, he⟩ := Checked.bind_eq_ok_iff.1 he
    obtain ⟨d, hd, he⟩ := Checked.bind_eq_ok_iff.1 he
    obtain rfl := Except.ok.inj he
    exact edit_eq_ok_iff.2 (.embed hl (runAll_widens h steps hd))
  | size given =>
    -- the one check that looks at the window
    obtain ⟨n, hn, rfl⟩ := Checked.map_eq_ok_iff.1 he
    obtain ⟨hgiven, hfits⟩ := Argument.size_eq_ok_iff.1 hn
    exact edit_eq_ok_iff.2 (.size (Argument.size_eq_ok_iff.2 ⟨hgiven, hfits.trans h.window⟩))
  | _ => exact he
termination_by structural s

/-- Steps in a row that are done under one window are done under a wider one, alike. -/
theorem runAll_widens (h : config.Widens wide) (steps : List Step) {d d' : Document}
    (hd : runAll config steps d = .ok d') : runAll wide steps d = .ok d' := by
  cases steps with
  | nil => exact hd
  | cons s rest =>
    obtain ⟨e, he, hd⟩ := Checked.bind_eq_ok_iff.1 hd
    obtain ⟨d₁, happly, hd⟩ := Checked.bind_eq_ok_iff.1 hd
    rw [runAll, edit_widens h s he]
    simp only [bind, Except.bind, happly]
    exact runAll_widens h rest hd
termination_by structural steps

end

/-- **A step** that is done under one window is done under a wider one, alike. -/
theorem apply_widens (h : config.Widens wide) {s : Step} {d d' : Document}
    (hs : s.apply config d = .ok d') : s.apply wide d = .ok d' := by
  obtain ⟨e, he, hd⟩ := apply_eq_ok_iff.1 hs
  exact apply_eq_ok_iff.2 ⟨e, s.edit_widens h he, hd⟩

end Step

/-! ## Calls and runs -/

/-- **A report** that finds nothing wrong under one window finds nothing wrong under a wider one. -/
theorem Document.report_valid_mono {m m' : Nat} (hm : m ≤ m') {d : Document}
    (h : (d.report m).valid = true) : (d.report m').valid = true := by
  rw [report_valid_iff] at h ⊢
  obtain ⟨hquery, hsize, hend⟩ := h
  exact ⟨hquery, fun size hs => (hsize size hs).trans hm,
    fun offset size ho hs => (hend offset size ho hs).trans hm⟩

namespace Builder

/-- The builder under another configuration. -/
def withConfig (b : Builder) (config : Config) : Builder := { b with config := config }

variable {b : Builder}

theorem performSteps_widens (h : b.config.Widens wide) {steps : List Step}
    (hdone : (b.performSteps steps).2 = none) :
    (b.withConfig wide).performSteps steps = ((b.performSteps steps).1.withConfig wide, none) := by
  induction steps generalizing b with
  | nil => rfl
  | cons s rest ih =>
    rcases hs : b.step s with r | b'
    · rw [performSteps_of_error hs] at hdone
      cases hdone
    · obtain ⟨d, hd, rfl⟩ := step_eq_ok_iff.1 hs
      have hwide : (b.withConfig wide).step s = .ok ({ b with document := d }.withConfig wide) :=
        step_eq_ok_iff.2 ⟨d, Step.apply_widens h hd, rfl⟩
      rw [performSteps_of_ok hs] at hdone ⊢
      rw [performSteps_of_ok hwide]
      exact ih h hdone

/-- **A call** that is done under one window is done under a wider one, alike. The steps that a
call of a preset stands for do not depend on the configuration. -/
theorem perform_widens (h : b.config.Widens wide) {call : Call}
    (hdone : (b.perform call).2 = none) :
    (b.withConfig wide).perform call = ((b.perform call).1.withConfig wide, none) := by
  rw [perform_eq] at hdone ⊢
  rw [perform_eq]
  rcases hs : call.steps with r | steps
  · rw [hs] at hdone
    cases hdone
  · rw [hs] at hdone
    exact performSteps_widens h hdone

theorem run_widens (h : b.config.Widens wide) {calls : List Call}
    (hdone : ∀ outcome ∈ b.trace calls, outcome.2 = none) :
    (b.withConfig wide).run calls = (b.run calls).withConfig wide ∧
      ∀ outcome ∈ (b.withConfig wide).trace calls, outcome.2 = none := by
  induction calls generalizing b with
  | nil => exact ⟨rfl, fun _ hm => absurd hm List.not_mem_nil⟩
  | cons call rest ih =>
    obtain ⟨hcall, hrest⟩ := List.forall_mem_cons.1 hdone
    have hwide := perform_widens h hcall
    have hconfig : (b.perform call).1.config.Widens wide := by
      rw [config_perform]
      exact h
    obtain ⟨hrun, htrace⟩ := ih hconfig hrest
    rw [run, trace, hwide]
    exact ⟨hrun, List.forall_mem_cons.2 ⟨rfl, htrace⟩⟩

/-- **A wider window only admits more.** If no call of a run is rejected under one window, none is
under a wider one, and the documents at the end are equal. If a report finds nothing wrong with a
builder under the one, it does not either under the other. -/
theorem run_widened {suffix : String} {m m' : Nat} (hm : m ≤ m') {calls : List Call}
    (hdone : ∀ outcome ∈ (start ⟨m, suffix⟩).trace calls, outcome.2 = none) :
    let narrow := (start ⟨m, suffix⟩).run calls
    let wide := (start ⟨m', suffix⟩).run calls
    (∀ outcome ∈ (start ⟨m', suffix⟩).trace calls, outcome.2 = none) ∧
      wide.document = narrow.document ∧
      (narrow.validate.valid = true → wide.validate.valid = true) ∧
      ∀ b : Builder, b.config = ⟨m, suffix⟩ → b.validate.valid = true →
        (b.withConfig ⟨m', suffix⟩).validate.valid = true := by
  intro narrow wide
  have hwidens : (start ⟨m, suffix⟩).config.Widens ⟨m', suffix⟩ := ⟨rfl, hm⟩
  obtain ⟨hrun, htrace⟩ := run_widens hwidens hdone
  have hvalid (b : Builder) (hb : b.config = ⟨m, suffix⟩) (h : b.validate.valid = true) :
      (b.withConfig ⟨m', suffix⟩).validate.valid = true := by
    rw [validate, hb] at h
    exact Document.report_valid_mono hm h
  have hwide : wide = narrow.withConfig ⟨m', suffix⟩ := hrun
  rw [hwide]
  exact ⟨htrace, rfl, hvalid narrow (config_run _ _), hvalid⟩

/-- A callback of a callback asks for a page that just fits into the window. -/
theorem run_widened_of_fitting :
    let calls : List Call :=
      [.step (.embed .nested "lines" [.size 10, .should [.size 7, .clause (.fieldExists "isbn")]]),
       .product .withFacets, .report .aggregationsOnly, .step (.size 4), .step (.offset 6)]
    let narrow := (start ⟨10, ".raw"⟩).run calls
    let wide := (start ⟨100, ".raw"⟩).run calls
    (∀ outcome ∈ (start ⟨10, ".raw"⟩).trace calls, outcome.2 = none) ∧
      (∀ outcome ∈ (start ⟨100, ".raw"⟩).trace calls, outcome.2 = none) ∧
      wide.document = narrow.document ∧ wide.validate.valid = true := by
  intro calls narrow wide
  have hall : ((start ⟨10, ".raw"⟩).trace calls).all (fun outcome => outcome.2.isNone) = true := rfl
  have hdone : ∀ outcome ∈ (start ⟨10, ".raw"⟩).trace calls, outcome.2 = none :=
    fun outcome ho => Option.isNone_iff_eq_none.1 (List.all_eq_true.1 hall outcome ho)
  have hm : 10 ≤ 100 := by decide
  obtain ⟨htrace, hsame, hvalid, -⟩ := run_widened hm hdone
  exact ⟨hdone, htrace, hsame, hvalid rfl⟩

end Builder

end SearchRequest

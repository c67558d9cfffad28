import SearchRequest.Proofs.Parts

/-!
# Steps in another order

Steps that work on different parts of the document can be made in any order. `Step.group` sorts
steps into groups, so that the order matters within a group at most. As long as no step replaces the
query, there is a group for each section that clauses are added to, one for the bound on optional
clauses, and one for installing the bool query; else all steps of the query are one group.

* `SameByGroup` — two lists are interleavings of the same sequences, one for each group.
* `Step.commute_of_group_ne` — steps of different groups can change places.
* `Builder.run_interleaved` — two runs of interleaved steps end at the same builder, and every step
  is rejected in both of them, for the same reason, or in neither.
-/

namespace SearchRequest

/-! ## Interleavings -/

section SameByGroup

variable {α G : Type} [DecidableEq G] {group : α → G} {l l' : List α}

/-- The items of each group are the same in both lists, and in the same order. -/
def SameByGroup (group : α → G) (l l' : List α) : Prop :=
  ∀ g, l.filter (fun a => group a = g) = l'.filter (fun a => group a = g)

namespace SameByGroup

theorem refl (l : List α) : SameByGroup group l l := fun _ => rfl

theorem symm (h : SameByGroup group l l') : SameByGroup group l' l := fun g => (h g).symm

theorem trans {l'' : List α} (h : SameByGroup group l l') (h' : SameByGroup group l' l'') :
    SameByGroup group l l'' :=
  fun g => (h g).trans (h' g)

theorem cons (a : α) (h : SameByGroup group l l') : SameByGroup group (a :: l) (a :: l') := by
  intro g
  rw [List.filter_cons, List.filter_cons, h g]

/-- Neighbours of different groups can change places. -/
theorem swap {a b : α} (h : group a ≠ group b) (l : List α) :
    SameByGroup group (a :: b :: l) (b :: a :: l) := by
  intro g
  by_cases ha : group a = g
  · have hb : group b ≠ g := fun hb => h (ha.trans hb.symm)
    simp [ha, hb]
  · simp [List.filter_cons, ha]

theorem eq_nil (h : SameByGroup group [] l) : l = [] := by
  rcases l with _ | ⟨a, rest⟩
  · rfl
  · have ha := h (group a)
    simp at ha

/-- The lists have the same items. -/
theorem mem {a : α} (h : SameByGroup group l l') (ha : a ∈ l') : a ∈ l := by
  have hmem : a ∈ l'.filter (fun b => group b = group a) := List.mem_filter.2 ⟨ha, by simp⟩
  rw [← h (group a)] at hmem
  exact (List.mem_filter.1 hmem).1

/-- The first item of one list stands in the other one behind items of other groups. Without it the
lists still agree. -/
theorem exists_of_cons {a : α} (h : SameByGroup group (a :: l) l') :
    ∃ before after, l' = before ++ a :: after ∧ (∀ b ∈ before, group b ≠ group a) ∧
      SameByGroup group l (before ++ after) := by
  have hself := (h (group a)).symm
  rw [List.filter_cons_of_pos (by simp), List.filter_eq_cons_iff] at hself
  obtain ⟨before, after, rfl, hbefore, -, hafter⟩ := hself
  have hne : ∀ b ∈ before, group b ≠ group a := by
    intro b hb
    simpa using hbefore b hb
  refine ⟨before, after, rfl, hne, fun g => ?_⟩
  by_cases hg : group a = g
  · subst hg
    have hnone : before.filter (fun b => group b = group a) = [] :=
      List.filter_eq_nil_iff.2 fun b hb => by simpa using hne b hb
    rw [List.filter_append, hnone, List.nil_append, hafter]
  · have hall := h g
    rw [List.filter_append, List.filter_cons_of_neg (by simpa using hg),
      List.filter_cons_of_neg (by simpa using hg)] at hall
    rw [List.filter_append, hall]

end SameByGroup

end SameByGroup

/-! ## Groups of steps -/

namespace Step

/-- The part of the document that a step works on. A reset works on all of them. -/
def part? : Step → Option Part
  | clause _ | should _ | mustNot _ | embed .. => some .query
  | minimumShouldMatch _ | ensureBoolQuery => some .query
  | wrap _ | setQuery _ | matchAll => some .query
  | reset => none
  | offset _ => some .offset
  | size _ => some .size
  | sort .. | sortWith .. => some .sort
  | source _ | sourceEnabled _ => some .source
  | highlight .. | highlightField .. => some .highlight
  | trackTotalHits _ => some .trackTotalHits
  | minScore _ => some .minScore
  | searchAfter _ => some .searchAfter
  | aggregate _ | subAggregate .. => some .aggregations

/-- A group of steps. -/
inductive Group where
  /-- those that work on a part of the document, or on all of it -/
  | part (p? : Option Part)
  /-- those that add clauses to a section -/
  | clauses (target : Section)
  /-- those that set the bound on optional clauses -/
  | minimum
  /-- those that ask for the bool query -/
  | boolQuery
deriving DecidableEq, Repr

/-- The group of a step when no step replaces the query. -/
def fineGroup : Step → Group
  | clause call => .clauses call.target
  | should _ => .clauses .should
  | mustNot _ => .clauses .mustNot
  | embed .. => .clauses .must
  | minimumShouldMatch _ => .minimum
  | ensureBoolQuery => .boolQuery
  | s => .part s.part?

/-- The group of a step. Only if no step replaces the query, the steps that work on it are told
apart (`fine`). -/
def group (fine : Bool) (s : Step) : Group := if fine then s.fineGroup else .part s.part?

/-! ## Groups and edits -/

variable {config : Config} {s t : Step} {e f : Edit}

theorem part?_of_edit (h : s.edit config = .ok e) : s.part? = e.part? := by
  cases asks_of_edit h <;> rfl

theorem exists_part_of_ne_reset (h : s ≠ .reset) : ∃ p, s.part? = some p := by
  cases s with
  | reset => exact absurd rfl h
  | _ => exact ⟨_, rfl⟩

/-- Steps that do not work on the query are not told apart any further. -/
theorem fineGroup_of_part_ne (h : s.part? ≠ some .query) : s.fineGroup = .part s.part? := by
  cases s with
  | clause | should | mustNot | embed | minimumShouldMatch | ensureBoolQuery => exact absurd rfl h
  | _ => rfl

/-- A step that works on the query replaces it or installs the bool query. -/
theorem installsBool_of_part (h : s.part? = some .query) (hr : s.replacesQuery = false) :
    s.installsBool = true := by
  cases s with
  | clause | should | mustNot | embed | minimumShouldMatch | ensureBoolQuery => rfl
  | wrap | setQuery | matchAll | reset => cases hr
  | _ => cases h

/-- The clauses that a step adds are for the section of its group. -/
theorem fineGroup_of_added (h : s.edit config = .ok e) {target : Section}
    (ha : e.added target ≠ []) : s.fineGroup = .clauses target := by
  have hsection {u : Section} {cs : List Clause} (hu : (Edit.append u cs).added target ≠ []) :
      u = target := by
    by_contra hne
    exact hu (if_neg (Ne.symm hne))
  cases asks_of_edit h with
  | @clause call u c hc =>
    obtain ⟨ht, -⟩ := ClauseCall.target_clause_of_check hc
    rw [fineGroup, ht, hsection ha]
  | should | mustNot | embed =>
    obtain rfl := hsection ha
    rfl
  | _ => exact absurd rfl ha

/-- Only the steps of one group set the bound. -/
theorem fineGroup_of_bound (h : s.edit config = .ok e) (hb : e.bound? ≠ none) :
    s.fineGroup = .minimum := by
  cases asks_of_edit h with
  | minimumShouldMatch => rfl
  | _ => exact absurd rfl hb

/-- Steps of different groups ask for edits that are apart. -/
theorem apart_of_fineGroup_ne (he : s.edit config = .ok e) (hf : t.edit config = .ok f)
    (h : s.fineGroup ≠ t.fineGroup) : e.Apart f := by
  constructor
  · intro target
    by_contra hadd
    rw [not_or] at hadd
    exact h ((fineGroup_of_added he hadd.1).trans (fineGroup_of_added hf hadd.2).symm)
  · by_contra hbound
    rw [not_or] at hbound
    exact h ((fineGroup_of_bound he hbound.1).trans (fineGroup_of_bound hf hbound.2).symm)

/-- The edits that the steps ask for, if they pass, can change places. -/
def Commute (config : Config) (s t : Step) : Prop :=
  ∀ e f, s.edit config = .ok e → t.edit config = .ok f → e.Commute f

/-- **Steps of different groups** can change places. -/
theorem commute_of_group_ne {fine : Bool} (hs : s ≠ .reset) (ht : t ≠ .reset)
    (hfine : fine = true → s.replacesQuery = false ∧ t.replacesQuery = false)
    (h : s.group fine ≠ t.group fine) : Commute config s t := by
  intro e f he hf
  obtain ⟨p, hp⟩ := exists_part_of_ne_reset hs
  obtain ⟨q, hq⟩ := exists_part_of_ne_reset ht
  by_cases hpq : p = q
  · -- both work on the same part: this must be the query, with the steps told apart
    subst hpq
    rcases fine with _ | _
    · exact absurd (congrArg Group.part (hp.trans hq.symm)) h
    · by_cases hquery : p = .query
      · subst hquery
        obtain ⟨hrs, hrt⟩ := hfine rfl
        refine .of_installsBool ?_ ?_ (apart_of_fineGroup_ne he hf h)
        · rw [← installsBool_of_edit he, installsBool_of_part hp hrs]
        · rw [← installsBool_of_edit hf, installsBool_of_part hq hrt]
      · have hne : some p ≠ some Part.query := fun hsome => hquery (Option.some.inj hsome)
        have hgs : s.fineGroup = .part (some p) := hp ▸ fineGroup_of_part_ne (hp.symm ▸ hne)
        have hgt : t.fineGroup = .part (some p) := hq ▸ fineGroup_of_part_ne (hq.symm ▸ hne)
        exact absurd (hgs.trans hgt.symm) h
  · rw [part?_of_edit he] at hp
    rw [part?_of_edit hf] at hq
    exact .of_part_ne hp hq hpq

end Step

/-! ## Steps of a builder -/

namespace Builder

/-- The steps of a run, each with its rejection if there was one. -/
def outcomes : Builder → List Step → List (Step × Option Rejection)
  | _, [] => []
  | b, s :: rest => (s, (b.perform (.step s)).2) :: outcomes (b.perform (.step s)).1 rest

/-- What becomes of a builder by a step whose arguments pass. -/
theorem perform_of_edit_outcome {b : Builder} {s : Step} {e : Edit} (h : s.edit b.config = .ok e) :
    b.perform (.step s) =
      ({ b with document := (e.outcome b.document).1 }, (e.outcome b.document).2) := by
  rw [Edit.outcome]
  rcases hd : e.apply b.document with r | d
  · have hs : b.step s = .error r := by
      rw [step, Step.apply, h, Except.bind, hd]
      rfl
    exact performSteps_of_error hs
  · exact perform_of_edit h hd

variable {b : Builder} {s t : Step}

/-- **Two steps in either order** lead to the same builder, and to the same rejections. -/
theorem perform_comm (h : Step.Commute b.config s t) :
    ((b.perform (.step s)).1.perform (.step t)).1 = ((b.perform (.step t)).1.perform (.step s)).1 ∧
      ((b.perform (.step s)).1.perform (.step t)).2 = (b.perform (.step t)).2 ∧
      ((b.perform (.step t)).1.perform (.step s)).2 = (b.perform (.step s)).2 := by
  rcases hs : s.edit b.config with r | e
  · have hs' : s.edit (b.perform (.step t)).1.config = .error r := by
      rw [config_perform, hs]
    rw [perform_of_edit_error hs, perform_of_edit_error hs']
    exact ⟨rfl, rfl, rfl⟩
  · rcases ht : t.edit b.config with r | f
    · have ht' : t.edit (b.perform (.step s)).1.config = .error r := by
        rw [config_perform, ht]
      rw [perform_of_edit_error ht, perform_of_edit_error ht']
      exact ⟨rfl, rfl, rfl⟩
    · obtain ⟨hdocument, hrt, hrs⟩ := h e f hs ht b.document
      have hst := perform_of_edit_outcome (b := ⟨b.config, (e.outcome b.document).1⟩) ht
      have hts := perform_of_edit_outcome (b := ⟨b.config, (f.outcome b.document).1⟩) hs
      rw [perform_of_edit_outcome hs, perform_of_edit_outcome ht, hst, hts]
      exact ⟨congrArg (Builder.mk b.config) hdocument, hrt, hrs⟩

/-- The steps before a step can be made after it, if each of them can change places with it. -/
theorem run_moved {G : Type} [DecidableEq G] (group : Step → G) {before : List Step}
    (after : List Step) (hcomm : ∀ t ∈ before, Step.Commute b.config t s)
    (hne : ∀ t ∈ before, group t ≠ group s) :
    b.run ((before ++ s :: after).map .step) =
        (b.perform (.step s)).1.run ((before ++ after).map .step) ∧
      SameByGroup (fun o => group o.1) (b.outcomes (before ++ s :: after))
        ((s, (b.perform (.step s)).2) :: (b.perform (.step s)).1.outcomes (before ++ after)) := by
  induction before generalizing b with
  | nil => exact ⟨rfl, .refl _⟩
  | cons t rest ih =>
    -- `s` is moved in front of the rest by induction, and then past `t`
    obtain ⟨hrun, hsame⟩ := ih (b := (b.perform (.step t)).1)
      (by rw [config_perform]; exact fun u hu => hcomm u (List.mem_cons_of_mem t hu))
      fun u hu => hne u (List.mem_cons_of_mem t hu)
    obtain ⟨hbuilder, hrs, hrt⟩ := perform_comm (hcomm t List.mem_cons_self)
    rw [hbuilder] at hrun hsame
    rw [hrs] at hsame
    refine ⟨hrun, (hsame.cons _).trans ?_⟩
    rw [List.cons_append, outcomes, hrt]
    refine SameByGroup.swap ?_ _
    exact hne t List.mem_cons_self

/-- **Interleaved steps.** Two lists of steps without a reset that are interleavings of the same
sequences, one for each group, lead a builder to the same document. Each step is rejected in both
runs, for the same reason, or in neither. -/
theorem run_interleaved (b : Builder) {steps steps' : List Step} (hreset : Step.reset ∉ steps)
    (h : SameByGroup (Step.group (steps.all fun s => !s.replacesQuery)) steps steps') :
    b.run (steps.map .step) = b.run (steps'.map .step) ∧
      SameByGroup (fun o => Step.group (steps.all fun s => !s.replacesQuery) o.1)
        (b.outcomes steps) (b.outcomes steps') := by
  have hcomm : ∀ s ∈ steps, ∀ t ∈ steps,
      s.group (steps.all fun s => !s.replacesQuery) ≠
        t.group (steps.all fun s => !s.replacesQuery) → Step.Commute b.config s t := by
    intro s hs t ht
    refine Step.commute_of_group_ne (fun he => hreset (he ▸ hs)) (fun he => hreset (he ▸ ht)) ?_
    intro hall
    rw [List.all_eq_true] at hall
    exact ⟨by simpa using hall s hs, by simpa using hall t ht⟩
  -- from here on the grouping is fixed, and the steps shrink
  generalize Step.group (steps.all fun s => !s.replacesQuery) = group at h hcomm ⊢
  clear hreset
  induction steps generalizing b steps' with
  | nil =>
    obtain rfl := h.eq_nil
    exact ⟨rfl, .refl _⟩
  | cons s rest ih =>
    obtain ⟨before, after, rfl, hne, hrest⟩ := h.exists_of_cons
    have hbefore {t : Step} (ht : t ∈ before) : t ∈ s :: rest :=
      List.mem_cons_of_mem s (hrest.mem (List.mem_append_left after ht))
    obtain ⟨hrun, hsame⟩ := run_moved (b := b) group after
      (fun t ht => hcomm t (hbefore ht) s List.mem_cons_self (hne t ht)) hne
    obtain ⟨hrun', hsame'⟩ := ih (b.perform (.step s)).1 hrest fun t ht u hu htu => by
      rw [config_perform]
      exact hcomm t (List.mem_cons_of_mem s ht) u (List.mem_cons_of_mem s hu) htu
    exact ⟨hrun'.trans hrun.symm, (hsame'.cons _).trans hsame.symm⟩

/-- A value waits for the section that one step adds to, another step installs the bool query to set
the bound, and a third one has no aggregation to work on. With a step that replaces the query, those
that work on it keep their order, and a page that is too large can still go anywhere. -/
theorem run_interleaved_examples :
    let b := (start {}).run
      [.step (.setQuery (.obj [("bool", .obj [("filter", .str "later")])]))]
    let term : Step := .clause (.term "kind" (.str "book"))
    let bound : Step := .minimumShouldMatch 1
    let child : Step := .subAggregate "brands" "price" (.obj [])
    let page : Step := .size 20000
    (b.run ([term, bound, child].map .step) = b.run ([child, bound, term].map .step) ∧
      SameByGroup (fun o => Step.group true o.1) (b.outcomes [term, bound, child])
        (b.outcomes [child, bound, term])) ∧
    b.run ([term, .matchAll, page].map .step) = b.run ([page, term, .matchAll].map .step) ∧
      SameByGroup (fun o => Step.group false o.1) (b.outcomes [term, .matchAll, page])
        (b.outcomes [page, term, .matchAll]) := by
  intro b term bound child page
  constructor
  · have h : SameByGroup (Step.group true) [term, bound, child] [child, bound, term] :=
      .trans (.cons term (.swap (by decide) [])) <| .trans (.swap (by decide) [bound])
        (.cons child (.swap (by decide) []))
    exact run_interleaved b (by simp [term, bound, child]) h
  · have h : SameByGroup (Step.group false) [term, .matchAll, page] [page, term, .matchAll] :=
      .trans (.cons term (.swap (by decide) [])) (.swap (by decide) [Step.matchAll])
    exact run_interleaved b (by simp [term, page]) h

end Builder

end SearchRequest

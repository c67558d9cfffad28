import Mathlib.Data.List.DropRight
import SearchRequest.Proofs.Reached
import SearchRequest.Proofs.Specifications

/-!
# Aggregations of a run

The aggregations of a document are changed in their place: attaching one under a name that is there
keeps the place of the name, and a child is written into the specification of its parent. This file
says what they are in terms of the steps that were done since the last reset, and nothing else:

* their names are those under which an aggregation was attached, in the order in which they came
  first;
* under a name stands what was attached last under it, with the children that it was given since
  (`Value.Extended`). These follow the children that the specification brought along, and each has
  the last specification that it was given (`Object.Overlaid`).

The main statement is `Builder.aggregations_of_run`. Children that were given before the last
attachment of their parent are gone, since they do not occur in it.
-/

namespace SearchRequest

/-! ## Lists and objects -/

/-- One more item is kept only if it is new. -/
theorem eraseDups_concat {α : Type} [DecidableEq α] (l : List α) (a : α) :
    (l ++ [a]).eraseDups = if a ∈ l then l.eraseDups else l.eraseDups ++ [a] := by
  rw [List.eraseDups_append]
  by_cases h : a ∈ l
  · simp [List.removeAll, h]
  · simp [List.removeAll, h, List.eraseDups_cons]

/-- A list that ends with an item, cut at any of its items: at the last one, or before it. -/
theorem concat_eq_append_cons {α : Type} {l before after : List α} {a c : α}
    (h : l ++ [a] = before ++ c :: after) :
    (after = [] ∧ l = before ∧ a = c) ∨
      ∃ after', after = after' ++ [a] ∧ l = before ++ c :: after' := by
  rcases List.eq_nil_or_concat after with rfl | ⟨after', x, hafter⟩
  · obtain ⟨hl, ha⟩ := List.append_inj' h rfl
    exact .inl ⟨rfl, hl, (List.cons.inj ha).1⟩
  · rw [List.concat_eq_append] at hafter
    rw [hafter, ← List.cons_append, ← List.append_assoc] at h
    obtain ⟨hl, ha⟩ := List.append_inj' h rfl
    obtain rfl := (List.cons.inj ha).1
    exact .inr ⟨after', hafter, hl⟩

namespace Object

/-- What is written twice under a key is there as it was written last. -/
theorem insert_insert_self (members : Object) (key : String) (v w : Value) :
    (members.insert key v).insert key w = members.insert key w := by
  induction members with
  | nil => simp [insert]
  | cons m rest ih =>
    obtain ⟨k, u⟩ := m
    by_cases h : k = key
    · simp [insert, h]
    · simp only [insert, if_neg h, ih]

/-- The members are those of `own`, in their order, and behind them those that were given under
other names, in the order in which the names came first. What was given last under a name stands
there. -/
structure Overlaid (own given members : Object) : Prop where
  keys : members.keys = own.keys ++ (given.keys.removeAll own.keys).eraseDups
  value (name : String) :
    members.find? name = (find? given.reverse name).or (own.find? name)

namespace Overlaid

variable {own given members : Object}

theorem nil (own : Object) : Overlaid own [] own where
  keys := (List.append_nil _).symm
  value _ := rfl

/-- One more member is given. -/
theorem concat (h : Overlaid own given members) (name : String) (v : Value) :
    Overlaid own (given ++ [(name, v)]) (members.insert name v) where
  keys := by
    have hgiven : (given ++ [(name, v)]).keys.removeAll own.keys =
        given.keys.removeAll own.keys ++ [name].removeAll own.keys := by
      rw [keys_append, List.removeAll, List.filter_append]
      rfl
    rw [keys_insert, hgiven, h.keys]
    by_cases ho : name ∈ own.keys
    · have hnone : [name].removeAll own.keys = [] := by
        simp [List.removeAll, ho]
      rw [if_pos (List.mem_append_left _ ho), hnone, List.append_nil]
    · have hone : [name].removeAll own.keys = [name] := by
        simp [List.removeAll, ho]
      rw [hone, eraseDups_concat]
      by_cases hg : name ∈ given.keys.removeAll own.keys
      · rw [if_pos (List.mem_append_right _ (List.mem_eraseDups.2 hg)), if_pos hg]
      · have hnot : name ∉ own.keys ++ (given.keys.removeAll own.keys).eraseDups := by
          rw [List.mem_append, List.mem_eraseDups, not_or]
          exact ⟨ho, hg⟩
        rw [if_neg hnot, if_neg hg, List.append_assoc]
  value other := by
    rw [List.reverse_append, List.reverse_singleton, List.singleton_append, find?_cons]
    by_cases hn : name = other
    · rw [if_pos hn, hn, find?_insert_self]
      rfl
    · rw [if_neg hn, find?_insert_of_ne _ _ (Ne.symm hn), h.value]

end Overlaid

end Object

/-! ## Specifications with children -/

/-- The children that a specification brings along: those in the object under `aggs`. There are none
if nothing stands there, or a value that is no object. -/
structure Object.Brings (members own : Object) : Prop where
  object {children : Object} (h : members.find? "aggs" = some (.obj children)) : own = children
  none (h : ∀ children, members.find? "aggs" ≠ some (.obj children)) : own = []

/-- Children are looked for where a specification brings them along. -/
theorem Object.brings_children (members : Object) : members.Brings (Document.children members) where
  object h := by rw [Document.children, Document.childrenKey, h]
  none h := by
    rw [Document.children, Document.childrenKey]
    split
    · rename_i children hfound
      exact absurd hfound (h children)
    · rfl

/-- The specification as it was attached, with the children that it was given since. Without any it
stands as it is. Else the children that it brought along are overlaid with those given. -/
def Value.Extended (spec : Value) (given : Object) (v : Value) : Prop :=
  (given = [] → v = spec) ∧
    (given ≠ [] → ∃ members own children : Object, spec = .obj members ∧ members.Brings own ∧
      v = .obj (members.insert "aggs" (.obj children)) ∧ own.Overlaid given children)

namespace Value.Extended

/-- An attached specification has no other children yet than its own. -/
theorem attached (spec : Value) : spec.Extended [] spec :=
  ⟨fun _ => rfl, fun h => absurd rfl h⟩

/-- A child more is given. -/
theorem addChild {spec : Value} {given members : Object} (h : spec.Extended given (.obj members))
    (name : String) (child : Value) :
    spec.Extended (given ++ [(name, child)]) (.obj (Document.addChild members name child)) := by
  refine ⟨fun hnil => ?_, fun _ => ?_⟩
  · exact absurd hnil (List.append_ne_nil_of_right_ne_nil _ (List.cons_ne_nil _ _))
  · by_cases hg : given = []
    · subst hg
      obtain rfl := h.1 rfl
      exact ⟨members, _, _, rfl, members.brings_children, rfl,
        (Object.Overlaid.nil _).concat name child⟩
    · obtain ⟨before, own, children, rfl, hown, hv, hover⟩ := h.2 hg
      obtain rfl := Value.obj.inj hv
      have hchildren : Document.children (before.insert "aggs" (.obj children)) = children := by
        rw [Document.children, Document.childrenKey, Object.find?_insert_self]
      refine ⟨before, own, children.insert name child, rfl, hown, ?_, hover.concat name child⟩
      rw [Document.addChild, hchildren, Document.childrenKey, Object.insert_insert_self]

end Value.Extended

/-! ## What steps attach -/

namespace Step

/-- The name and the specification that a step attaches at the top. -/
def attached? : Step → Option (String × Value)
  | aggregate call => some (call.target, call.spec)
  | _ => none

/-- The name and the specification of the child that a step gives to the parent. -/
def child? (parent : String) : Step → Option (String × Value)
  | subAggregate p name spec => if p = parent then some (name, spec) else none
  | _ => none

/-- The step starts the document anew. -/
def isReset : Step → Bool
  | reset => true
  | _ => false

end Step

/-- What the steps attached at the top, one after the other. -/
def attachments (history : List Step) : Object := history.filterMap Step.attached?

/-- The children that the steps gave to the parent, one after the other. -/
def childrenGiven (parent : String) (history : List Step) : Object :=
  history.filterMap (Step.child? parent)

/-- **The aggregations after some steps**, all of which were done, from none at the start. -/
structure Attaches (history : List Step) (aggs : Option Object) : Prop where
  /-- there are aggregations once one was attached -/
  absent : aggs = none ↔ attachments history = []
  /-- their names, in the order in which they came first -/
  names : (aggs.getD []).keys = (attachments history).keys.eraseDups
  /-- what was attached last under a name, with the children given since -/
  value {before after : List Step} {s : Step} {name : String} {spec : Value}
    (hcut : history = before ++ s :: after) (hs : s.attached? = some (name, spec))
    (hlast : name ∉ (attachments after).keys) :
    ∃ v, (aggs.getD []).find? name = some v ∧ spec.Extended (childrenGiven name after) v

namespace Attaches

variable {history : List Step} {aggs : Option Object} {s : Step}

theorem nil : Attaches [] none where
  absent := ⟨fun _ => rfl, fun _ => rfl⟩
  names := rfl
  value hcut := by simp at hcut

theorem attachments_concat (history : List Step) (s : Step) :
    attachments (history ++ [s]) = attachments history ++ s.attached?.toList := by
  rw [attachments, List.filterMap_append]
  rcases h : s.attached? with _ | m <;> simp [attachments, h]

theorem childrenGiven_concat (parent : String) (history : List Step) (s : Step) :
    childrenGiven parent (history ++ [s]) =
      childrenGiven parent history ++ (s.child? parent).toList := by
  rw [childrenGiven, List.filterMap_append]
  rcases h : s.child? parent with _ | m <;> simp [childrenGiven, h]

/-- Other steps change nothing. -/
theorem other (h : Attaches history aggs) (ha : s.attached? = none)
    (hc : ∀ parent, s.child? parent = none) : Attaches (history ++ [s]) aggs where
  absent := by
    rw [attachments_concat, ha, Option.toList_none, List.append_nil]
    exact h.absent
  names := by
    rw [attachments_concat, ha, Option.toList_none, List.append_nil]
    exact h.names
  value hcut hs hlast := by
    rcases concat_eq_append_cons hcut with ⟨-, -, rfl⟩ | ⟨after', rfl, rfl⟩
    · rw [ha] at hs
      cases hs
    · rw [attachments_concat, ha, Option.toList_none, List.append_nil] at hlast
      rw [childrenGiven_concat, hc, Option.toList_none, List.append_nil]
      exact h.value rfl hs hlast

/-- An aggregation is attached, with its own children only. -/
theorem attach (h : Attaches history aggs) {name : String} {spec : Value}
    (ha : s.attached? = some (name, spec)) (hc : ∀ parent, s.child? parent = none) :
    Attaches (history ++ [s]) (some ((aggs.getD []).insert name spec)) where
  absent := by
    rw [attachments_concat, ha]
    simp
  names := by
    have hmem : name ∈ (aggs.getD []).keys ↔ name ∈ (attachments history).keys := by
      rw [h.names, List.mem_eraseDups]
    have hkeys : (attachments (history ++ [s])).keys = (attachments history).keys ++ [name] := by
      rw [attachments_concat, ha, Object.keys_append]
      rfl
    rw [Option.getD_some, Object.keys_insert, hkeys, eraseDups_concat, h.names]
    simp only [← hmem, h.names]
  value {before after s₀ name₀ spec₀} hcut hs hlast := by
    rw [Option.getD_some]
    rcases concat_eq_append_cons hcut with ⟨rfl, -, rfl⟩ | ⟨after', rfl, rfl⟩
    · rw [ha] at hs
      obtain ⟨rfl, rfl⟩ := Prod.mk.inj (Option.some.inj hs)
      exact ⟨spec, Object.find?_insert_self _ _ _, .attached spec⟩
    · rw [attachments_concat, ha, Object.keys_append, List.mem_append, not_or] at hlast
      have hne : name₀ ≠ name := by
        rintro rfl
        exact hlast.2 List.mem_cons_self
      rw [childrenGiven_concat, hc, Option.toList_none, List.append_nil,
        Object.find?_insert_of_ne _ _ hne]
      exact h.value rfl hs hlast.1

/-- A child is given to an aggregation that is there. -/
theorem extend (h : Attaches history aggs) {parent name : String} {spec : Value} {members : Object}
    (hp : (aggs.getD []).find? parent = some (.obj members)) :
    Attaches (history ++ [.subAggregate parent name spec])
      (some ((aggs.getD []).insert parent (.obj (Document.addChild members name spec)))) where
  absent := by
    have hsome : aggs ≠ none := by
      rintro rfl
      cases hp
    rw [attachments_concat]
    simpa [Step.attached?] using mt h.absent.2 hsome
  names := by
    have hmem : parent ∈ (aggs.getD []).keys := by
      by_contra hnot
      rw [Object.find?_eq_none_iff.2 hnot] at hp
      cases hp
    rw [Option.getD_some, Object.keys_insert, if_pos hmem, h.names, attachments_concat]
    exact congrArg (fun a : Object => a.keys.eraseDups) (List.append_nil _).symm
  value {before after s₀ name₀ spec₀} hcut hs hlast := by
    rw [Option.getD_some]
    rcases concat_eq_append_cons hcut with ⟨-, -, rfl⟩ | ⟨after', rfl, rfl⟩
    · cases hs
    · rw [attachments_concat, Object.keys_append, List.mem_append, not_or] at hlast
      obtain ⟨v, hv, hext⟩ := h.value rfl hs hlast.1
      rw [childrenGiven_concat]
      by_cases hn : parent = name₀
      · subst hn
        rw [hp] at hv
        obtain rfl := Option.some.inj hv
        refine ⟨_, Object.find?_insert_self _ _ _, ?_⟩
        rw [Step.child?, if_pos rfl]
        exact hext.addChild name spec
      · rw [Step.child?, if_neg hn, Option.toList_none, List.append_nil,
          Object.find?_insert_of_ne _ _ (Ne.symm hn)]
        exact ⟨v, hv, hext⟩

end Attaches

/-! ## Steps since the last reset -/

/-- The steps behind the last reset. -/
def sinceReset (steps : List Step) : List Step := steps.rtakeWhile fun s => !s.isReset

/-- The aggregation that a child can be given to, among all of them. -/
theorem Document.find?_of_aggregation? {d : Document} {name : String} {members : Object}
    (h : d.aggregation? name = some members) :
    (d.aggregations.getD []).find? name = some (.obj members) := by
  obtain ⟨v, hv, hobject⟩ := Option.bind_eq_some_iff.1 h
  obtain ⟨aggs, ha, hfound⟩ := Option.bind_eq_some_iff.1 hv
  cases v with
  | obj _ =>
    obtain rfl := Option.some.inj hobject
    rw [ha]
    exact hfound
  | _ => cases hobject

/-- **One step more** that is done. -/
theorem Attaches.apply {config : Config} {done : List Step} {s : Step} {d d' : Document}
    (h : Attaches (sinceReset done) d.aggregations) (hs : s.apply config d = .ok d') :
    Attaches (sinceReset (done ++ [s])) d'.aggregations := by
  obtain ⟨e, he, hd⟩ := Step.apply_eq_ok_iff.1 hs
  rw [sinceReset, List.rtakeWhile_concat]
  cases Step.asks_of_edit he with
  | reset =>
    obtain rfl := Except.ok.inj hd
    exact .nil
  | @aggregate call r hr =>
    obtain rfl := Except.ok.inj hd
    obtain rfl := AggregationCall.check_eq hr
    exact h.attach rfl fun _ => rfl
  | subAggregate =>
    obtain ⟨members, hp, rfl⟩ := Option.map_eq_some_iff.1 (Edit.apply_attachUnder_eq_ok_iff.1 hd)
    exact h.extend (Document.find?_of_aggregation? hp)
  | _ =>
    obtain rfl := Except.ok.inj hd
    exact h.other rfl fun _ => rfl

/-! ## Runs -/

namespace Builder

/-- Of steps in a row, those that are done: all before the first that is rejected. -/
def doneSteps : Builder → List Step → List Step
  | _, [] => []
  | b, s :: rest =>
    match b.step s with
    | .ok b => s :: doneSteps b rest
    | .error _ => []

/-- The steps of a run that are done, those of the presets included. -/
def done : Builder → List Call → List Step
  | _, [] => []
  | b, call :: rest =>
    (match call.steps with
      | .ok steps => b.doneSteps steps
      | .error _ => []) ++ done (b.perform call).1 rest

/-- What every step of a list keeps, of the document together with the steps done before, is kept by
those that are done. -/
theorem done_performSteps {P : List Step → Document → Prop} {b : Builder}
    {before steps : List Step}
    (hstep : ∀ s ∈ steps, ∀ done d d', P done d → s.apply b.config d = .ok d' → P (done ++ [s]) d')
    (h : P before b.document) :
    P (before ++ b.doneSteps steps) (b.performSteps steps).1.document := by
  induction steps generalizing b before with
  | nil =>
    rw [doneSteps, List.append_nil]
    exact h
  | cons s rest ih =>
    rw [doneSteps]
    rcases hs : b.step s with r | b'
    · rw [performSteps_of_error hs]
      simpa using h
    · rw [performSteps_of_ok hs]
      obtain ⟨d, hd, rfl⟩ := step_eq_ok_iff.1 hs
      have hrest := ih (b := { b with document := d })
        (fun later hl => hstep later (List.mem_cons_of_mem s hl))
        (hstep s List.mem_cons_self _ _ _ h hd)
      rwa [List.append_assoc] at hrest

/-- **Histories of runs.** What all steps of all calls keep, of the document together with the steps
done before, holds at the end of a run of those that were done. -/
theorem done_run {P : List Step → Document → Prop} {b : Builder} {before : List Step}
    {calls : List Call}
    (hstep : ∀ call ∈ calls, ∀ steps, call.steps = .ok steps → ∀ s ∈ steps, ∀ done d d',
      P done d → s.apply b.config d = .ok d' → P (done ++ [s]) d')
    (h : P before b.document) : P (before ++ b.done calls) (b.run calls).document := by
  induction calls generalizing b before with
  | nil =>
    rw [done, List.append_nil]
    exact h
  | cons call rest ih =>
    have hcall := hstep call List.mem_cons_self
    rw [done, ← List.append_assoc]
    refine ih ?_ ?_
    · rw [config_perform]
      exact fun later hl => hstep later (List.mem_cons_of_mem call hl)
    · rw [perform_eq]
      rcases hs : call.steps with r | steps
      · simpa using h
      · exact done_performSteps (hcall steps hs) h

theorem attaches_run {b : Builder} {before : List Step} (calls : List Call)
    (h : Attaches (sinceReset before) b.document.aggregations) :
    Attaches (sinceReset (before ++ b.done calls)) (b.run calls).document.aggregations := by
  refine done_run (P := fun done d => Attaches (sinceReset done) d.aggregations) ?_ h
  intro call _ steps _ s _ done d d' hd hs
  exact hd.apply hs

/-- **The aggregations of a run** are what the steps that were done since the last reset, or since
the start, have attached. Their names come in the order in which each was attached first; under a
name stands what was attached last, with the children that it was given since. -/
theorem aggregations_of_run (config : Config) (calls : List Call) :
    Attaches (sinceReset ((start config).done calls))
      ((start config).run calls).document.aggregations := by
  have hstart : Attaches (sinceReset []) (start config).document.aggregations := .nil
  exact attaches_run calls hstart

/-- A name that is attached once more keeps its place and loses its child; the next child is new. -/
example :
    ((start {}).run
      [.step (.aggregate (.metric .avg "price" "price")),
       .step (.subAggregate "price" "first" (.obj [])),
       .step (.aggregate (.metric .stats "rating" "rating")),
       .step (.aggregate (.general "price" (.obj [("missing", .obj [])]))),
       .step (.subAggregate "price" "second" (.obj []))]).document.aggregations =
      some
        [("price", .obj [("missing", .obj []), ("aggs", .obj [("second", .obj [])])]),
         ("rating", Metric.stats.spec "rating")] :=
  rfl

end Builder

end SearchRequest

import SearchRequest.Proofs.Installing
import SearchRequest.Proofs.Lookup
import SearchRequest.Proofs.Written

/-!
# Values that wait for a section

A raw query may hold a value under a section's key that is neither a list nor an object. No clause
can be made of it on the spot, so that it is kept as it is, as one of the other parameters, until
its section is installed; then it becomes the one clause there, and is written as a list of one.

A section is not installed alone. Every call that works on the bool query installs all four sections
(`Step.installsBool`), and so a clause for one section takes the waiting values out of the others
too. `Builder.waiting_value_kept` says what is written under the key as long as no clause is added
to its own section: the value as it was given until such a call succeeds, and the list that holds it
from then on.
-/

namespace SearchRequest

/-! ## Waiting values of an adopted query -/

namespace BoolQuery

variable {C : Type} (raw : Value → C)

/-- Taking over a member changes nothing about the sections with other keys. -/
theorem adoptMember_of_ne (b : BoolQuery C) {key : String} {s : Section} (h : s.text ≠ key)
    (v : Value) :
    (b.adoptMember raw key v).get s = b.get s ∧
      (b.adoptMember raw key v).extra.find? s.text = b.extra.find? s.text := by
  have hset (t : Section) (cs? : Option (List C)) (ht : t.text = key) :
      (b.set t cs?).get s = b.get s ∧ (b.set t cs?).extra.find? s.text = b.extra.find? s.text := by
    have hne : s ≠ t := by
      rintro rfl
      exact h ht
    exact ⟨get_set_of_ne b cs? hne, by rw [extra_set]⟩
  have hinsert : ({ b with extra := b.extra.insert key v } : BoolQuery C).get s = b.get s ∧
      (b.extra.insert key v).find? s.text = b.extra.find? s.text :=
    ⟨by cases s <;> rfl, Object.find?_insert_of_ne _ v h⟩
  unfold adoptMember
  rcases ht : Section.ofText? key with _ | t
  · by_cases hk : key = minimumKey
    · simp only [if_pos hk]
      exact ⟨by cases s <;> rfl, trivial⟩
    · simp only [if_neg hk]
      exact hinsert
  · cases v with
    | arr items => exact hset t _ (Section.text_of_ofText? ht)
    | obj members => exact hset t _ (Section.text_of_ofText? ht)
    | _ => exact hinsert

theorem foldl_adoptMember_of_not_mem {b : BoolQuery C} {members : Object} {s : Section}
    (h : s.text ∉ members.keys) :
    let read := members.foldl (fun b m => b.adoptMember raw m.1 m.2) b
    read.get s = b.get s ∧ read.extra.find? s.text = b.extra.find? s.text := by
  induction members generalizing b with
  | nil => exact ⟨rfl, rfl⟩
  | cons m rest ih =>
    obtain ⟨k, v⟩ := m
    rw [Object.keys_cons, List.mem_cons, not_or] at h
    obtain ⟨hget, hfind⟩ := adoptMember_of_ne raw b h.1 v
    obtain ⟨hget', hfind'⟩ := ih (b := b.adoptMember raw k v) h.2
    exact ⟨hget'.trans hget, hfind'.trans hfind⟩

/-- A value under a section's key that is neither a list nor an object waits there once the members
have been read. -/
theorem waits_of_adopt {b : BoolQuery C} {members : Object} {s : Section} {v : Value}
    (hb : b.get s = none) (hn : members.keys.Nodup) (hv : v.isContainer = false)
    (hf : members.find? s.text = some v) :
    let read := members.foldl (fun b m => b.adoptMember raw m.1 m.2) b
    read.get s = none ∧ read.extra.find? s.text = some v := by
  induction members generalizing b with
  | nil => cases hf
  | cons m rest ih =>
    obtain ⟨k, w⟩ := m
    rw [Object.keys_cons, List.nodup_cons] at hn
    rw [Object.find?_cons] at hf
    by_cases hk : k = s.text
    · -- the member itself is kept, and no later one has its key
      subst hk
      rw [if_pos rfl] at hf
      obtain rfl := Option.some.inj hf
      have hkept : b.adoptMember raw s.text w = { b with extra := b.extra.insert s.text w } :=
        adoptMember_other b (minimumKey_ne_text s).symm fun _ _ => hv
      obtain ⟨hget, hfind⟩ := foldl_adoptMember_of_not_mem raw
        (b := b.adoptMember raw s.text w) hn.1
      refine ⟨hget.trans ?_, hfind.trans ?_⟩
      · rw [hkept, ← hb]
        cases s <;> rfl
      · rw [hkept]
        exact Object.find?_insert_self _ _ _
    · rw [if_neg hk] at hf
      have hget := (adoptMember_of_ne raw b (Ne.symm hk) w).1
      exact ih (hget.trans hb) hn.2 hf

end BoolQuery

/-! ## Values that stand alone -/

namespace QueryRoot

/-- The value stands alone in its section: as the one clause there, or, as long as the section is
not installed, as the value that waits for it. -/
def Alone (s : Section) (v : Value) (installed : Bool) (q : QueryRoot Clause) : Prop :=
  ∃ b, q.bool = some b ∧ b.upcoming .raw s = [.raw v] ∧ (b.get s).isSome = installed

namespace Alone

variable {q : QueryRoot Clause} {s : Section} {v : Value} {installed : Bool}

/-- The two ways to stand alone. -/
theorem cases_on {b : BoolQuery Clause} (h : b.upcoming .raw s = [.raw v]) :
    (b.get s = none ∧ b.extra.find? s.text = some v) ∨ b.get s = some [.raw v] := by
  rcases hg : b.get s with _ | cs
  · refine .inl ⟨rfl, ?_⟩
    rw [BoolQuery.upcoming_of_absent hg] at h
    rcases hf : b.extra.find? s.text with _ | w
    · rw [hf] at h
      cases h
    · rw [hf] at h
      cases h
      rfl
  · rw [BoolQuery.upcoming_of_get hg] at h
    exact .inr (congrArg some h)

/-- **A waiting value is written as it is**, and an installed one as a list of one. -/
theorem at?_toValue (h : q.Alone s v installed) :
    q.toValue.at? ["bool", s.text] = some (if installed then .arr [v] else v) := by
  obtain ⟨b, hb, hup, hi⟩ := h
  rw [at?_bool hb, BoolQuery.at?_section]
  rcases cases_on hup with ⟨hg, hf⟩ | hg
  · obtain rfl : false = installed := by rw [← hi, hg]; rfl
    rw [hg, hf]
    rfl
  · obtain rfl : true = installed := by rw [← hi, hg]; rfl
    rw [hg]
    rfl

/-- The finalizer drops neither the value nor the list that holds it. -/
theorem finalized (h : q.Alone s v installed) : q.finalized.Alone s v installed := by
  obtain ⟨bool, named⟩ := q
  obtain ⟨b, hb, hup, hi⟩ := h
  obtain rfl : bool = some b := hb
  have hget : b.prune.get s = b.get s := by
    rw [BoolQuery.get_prune]
    rcases cases_on hup with ⟨hg, -⟩ | hg
    · rw [hg]
      rfl
    · rw [hg]
      rfl
  have hup' : b.prune.upcoming .raw s = b.upcoming Clause.raw s := by
    rw [BoolQuery.upcoming, BoolQuery.upcoming, hget]
    rfl
  have hne : ¬ b.prune.isEmpty = true := by
    intro he
    simp only [BoolQuery.isEmpty, Bool.and_eq_true, List.all_eq_true] at he
    obtain ⟨⟨hsections, -⟩, hextra⟩ := he
    rcases cases_on hup with ⟨-, hf⟩ | hg
    · have hnil : b.extra = [] := List.isEmpty_iff.1 hextra
      rw [hnil] at hf
      cases hf
    · have hnone := hsections s s.mem_all
      rw [hget, hg] at hnone
      cases hnone
  have hq : QueryRoot.finalized ⟨some b, named⟩ = ⟨some b.prune, named⟩ := by
    simp only [QueryRoot.finalized, if_neg hne]
  rw [hq]
  exact ⟨b.prune, rfl, hup'.trans hup, by rw [hget, hi]⟩

/-- An adopted value that is neither a list nor an object waits for its section. -/
theorem of_adopt {w : Value} (hw : w.wellFormed = true) (hv : v.isContainer = false)
    (hat : w.at? ["bool", s.text] = some v) :
    ∃ q, adopt Clause.raw w = .ok q ∧ q.Alone s v false := by
  obtain ⟨members, u, rfl, hfind, hat⟩ := Value.at?_cons_eq_some_iff.1 hat
  obtain ⟨body, u', rfl, hfind', hat⟩ := Value.at?_cons_eq_some_iff.1 hat
  obtain rfl := Option.some.inj hat
  have hn : body.keys.Nodup := (Value.wellFormed_obj.1 (Object.wellFormed_of_find? hw hfind)).1
  have hempty : ({} : BoolQuery Clause).get s = none := by
    cases s <;> rfl
  obtain ⟨hget, hwaits⟩ := BoolQuery.waits_of_adopt Clause.raw hempty hn hv hfind'
  refine ⟨_, adopt_eq_ok_iff.2 ⟨members, rfl, .inr ⟨_, _, hfind, rfl, rfl⟩⟩, _, rfl, ?_, ?_⟩
  · rw [BoolQuery.upcoming_of_absent hget, hwaits]
    rfl
  · rw [hget]
    rfl

end Alone

end QueryRoot

/-! ## Steps that spare a section -/

/-- The edit neither adds a clause to the section nor replaces the query. -/
def Edit.Spares (s : Section) (e : Edit) : Prop := e.added s = [] ∧ e.replacesQuery = false

/-- The step neither adds a clause to the section nor replaces the query. A step that is rejected
does neither. -/
def Step.Spares (config : Config) (s : Section) (step : Step) : Prop :=
  ∀ e, step.edit config = .ok e → e.Spares s

theorem Step.Spares.of_edit {config : Config} {s : Section} {step : Step} {e : Edit}
    (h : step.edit config = .ok e) (he : e.Spares s) : step.Spares config s := by
  intro e' he'
  rw [h] at he'
  obtain rfl := Except.ok.inj he'
  exact he

/-- The step passes its checks and installs the bool query. -/
def Step.installs (config : Config) (step : Step) : Bool :=
  step.installsBool && (step.edit config).isOk

theorem Step.installs_iff {config : Config} {step : Step} :
    step.installs config = true ↔ ∃ e, step.edit config = .ok e ∧ e.installsBool = true := by
  rw [installs]
  rcases he : step.edit config with r | e
  · simp [Except.isOk, Except.toBool]
  · simp [Except.isOk, Except.toBool, installsBool_of_edit he]

namespace QueryRoot.Alone

variable {q : QueryRoot Clause} {s : Section} {v : Value} {installed : Bool}

/-- **A value is left alone** by an edit that spares its section. What edits of the bool query do to
it is to install the section. -/
theorem onQuery {e : Edit} (h : q.Alone s v installed) (he : e.Spares s) :
    (e.onQuery q).Alone s v (installed || e.installsBool) := by
  rcases hi : e.installsBool with _ | _
  · rw [e.onQuery_eq_self hi he.2, Bool.or_false]
    exact h
  · obtain ⟨b, hb, hup, -⟩ := h
    obtain ⟨b', hb', hget⟩ := e.get_onQuery q hi
    have hs : b'.get s = some [.raw v] := by
      rw [hget s, he.1, hb, Option.getD_some, hup, List.append_nil]
    refine ⟨b', hb', BoolQuery.upcoming_of_get hs, ?_⟩
    rw [hs, Bool.or_true]
    rfl

end QueryRoot.Alone

/-! ## Runs that spare a section -/

namespace Builder

/-- The value stands alone in its section of the builder's query. -/
def Alone (s : Section) (v : Value) (installed : Bool) (b : Builder) : Prop :=
  ∃ q, b.document.query = some q ∧ q.Alone s v installed

variable {s : Section} {v : Value} {installed : Bool}

/-- A value that stands alone, as it is written in the live and in the finalized document. -/
theorem Alone.at?_toValue {b : Builder} (h : b.Alone s v installed) :
    let shown := if installed then .arr [v] else v
    b.document.toValue.at? ["query", "bool", s.text] = some shown ∧
      b.toValue.at? ["query", "bool", s.text] = some shown := by
  obtain ⟨q, hq, ha⟩ := h
  have hfinalized : b.build.query = some q.finalized := Document.query_finalized hq
  rw [Document.at?_query hq, toValue, Document.at?_query hfinalized]
  exact ⟨ha.at?_toValue, ha.finalized.at?_toValue⟩

/-- Whether a step installs the bool query, from what comes of it. -/
theorem installs_eq (b : Builder) (s : Step) :
    s.installs b.config = (s.installsBool && (b.perform (.step s)).2.isNone) := by
  rcases he : s.edit b.config with r | e
  · rw [perform_of_edit_error he, Step.installs, he]
    rfl
  · rw [Step.installs, he, Step.installsBool_of_edit he]
    rcases hi : e.installsBool with _ | _
    · rfl
    · obtain ⟨d, hd⟩ := Edit.apply_of_installsBool hi b.document
      rw [perform_of_edit he hd]
      rfl

/-- A step that spares the section. -/
theorem Alone.perform_step {b : Builder} {step : Step} (h : b.Alone s v installed)
    (hs : step.Spares b.config s) :
    (b.perform (.step step)).1.Alone s v (installed || step.installs b.config) := by
  rw [installs_eq]
  rcases hstep : b.step step with r | b'
  · -- a rejected step leaves the builder as it was, and does not count as installing
    have hperform : b.perform (.step step) = (b, some r) := performSteps_of_error hstep
    rw [hperform, Option.isNone_some, Bool.and_false, Bool.or_false]
    exact h
  · have hperform : b.perform (.step step) = (b', none) := performSteps_of_ok hstep
    obtain ⟨d, hd, rfl⟩ := step_eq_ok_iff.1 hstep
    obtain ⟨e, he, hd⟩ := Step.apply_eq_ok_iff.1 hd
    obtain ⟨q, hq, ha⟩ := h
    rw [hperform, Option.isNone_none, Bool.and_true, Step.installsBool_of_edit he]
    exact ⟨e.onQuery q, Edit.query_apply hd hq, ha.onQuery (hs e he)⟩

/-- Steps that spare the section, one after the other. -/
theorem Alone.run_steps {b : Builder} (h : b.Alone s v installed) {steps : List Step}
    (hs : ∀ step ∈ steps, step.Spares b.config s) :
    (b.run (steps.map .step)).Alone s v (installed || steps.any (·.installs b.config)) := by
  induction steps generalizing b installed with
  | nil =>
    rw [List.any_nil, Bool.or_false]
    exact h
  | cons step rest ih =>
    have hrest := ih (h.perform_step (hs step List.mem_cons_self)) fun later hl => by
      rw [config_perform]
      exact hs later (List.mem_cons_of_mem step hl)
    rw [config_perform, Bool.or_assoc] at hrest
    exact hrest

/-- A value that is neither a list nor an object waits for its section in a builder that adopts the
query it is part of. -/
theorem Alone.of_setQuery (b : Builder) {query : Value} (hw : query.wellFormed = true)
    (hv : v.isContainer = false) (hat : query.at? ["bool", s.text] = some v) :
    let adopted := b.perform (.step (.setQuery query))
    adopted.2 = none ∧ adopted.1.config = b.config ∧ adopted.1.Alone s v false := by
  intro adopted
  obtain ⟨q, hq, ha⟩ := QueryRoot.Alone.of_adopt hw hv hat
  have hstep : b.step (.setQuery query) =
      .ok { b with document := { b.document with query := some q } } := by
    rw [step, Step.apply, Step.edit, hq]
    rfl
  have hadopted : adopted = ({ b with document := { b.document with query := some q } }, none) :=
    performSteps_of_ok hstep
  rw [hadopted]
  exact ⟨rfl, rfl, q, rfl, ha⟩

/-- **What becomes of a waiting value.** A builder adopts a query with a value under a section's key
that is neither a list nor an object, and makes calls none of which adds a clause to this section or
replaces the query. The live and the finalized document hold under the key the value itself, if no
call installed the bool query, and else the list of this one value. -/
theorem waiting_value_kept (b : Builder) {query v : Value} (s : Section) (later : List Step)
    (hw : query.wellFormed = true) (hv : v.isContainer = false)
    (hat : query.at? ["bool", s.text] = some v)
    (hs : ∀ step ∈ later, step.Spares b.config s) :
    let adopted := b.perform (.step (.setQuery query))
    let after := adopted.1.run (later.map .step)
    let shown := if later.any (·.installs b.config) then .arr [v] else v
    adopted.2 = none ∧
      after.document.toValue.at? ["query", "bool", s.text] = some shown ∧
        after.toValue.at? ["query", "bool", s.text] = some shown := by
  intro adopted after shown
  obtain ⟨hnone, hconfig, halone⟩ := Alone.of_setQuery b hw hv hat
  rw [← hconfig] at hs
  have hafter := (halone.run_steps hs).at?_toValue
  rw [Bool.false_or, hconfig] at hafter
  exact ⟨hnone, hafter⟩

/-- A text waits for `filter`. It is kept when the page is sized, and becomes a clause when another
section gets one. -/
theorem waiting_value_kept_examples :
    let query : Value := .obj [("bool", .obj [("boost", .int 2), ("filter", .str "later")])]
    let titled : Step := .clause (.textMatch "title" (.str "lean"))
    let adopted := (start {}).perform (.step (.setQuery query))
    let sized := adopted.1.run [.step (.size 5)]
    let searched := adopted.1.run [.step (.size 5), .step titled]
    let path := ["query", "bool", "filter"]
    (adopted.2 = none ∧ sized.document.toValue.at? path = some (.str "later") ∧
      sized.toValue.at? path = some (.str "later")) ∧
    (adopted.2 = none ∧ searched.document.toValue.at? path = some (.arr [.str "later"]) ∧
      searched.toValue.at? path = some (.arr [.str "later"])) := by
  intro query titled adopted sized searched path
  have hquery : query.wellFormed = true := rfl
  have hsize : (Step.size 5).Spares {} .filter := .of_edit (e := .setSize 5) rfl ⟨rfl, rfl⟩
  have htitled : titled.Spares {} .filter :=
    .of_edit (e := .append .must [.textMatch "title" (.str "lean") none]) rfl ⟨rfl, rfl⟩
  constructor
  · have h := waiting_value_kept (start {}) .filter [.size 5] hquery (v := .str "later") rfl rfl
      (List.forall_mem_singleton.2 hsize)
    have hany : [Step.size 5].any (·.installs (start {}).config) = false := rfl
    rw [hany] at h
    exact h
  · have h := waiting_value_kept (start {}) .filter [.size 5, titled] hquery (v := .str "later")
      rfl rfl (List.forall_mem_cons.2 ⟨hsize, List.forall_mem_singleton.2 htitled⟩)
    have hany : [Step.size 5, titled].any (·.installs (start {}).config) = true := rfl
    rw [hany] at h
    exact h

/-- A value does not wait until a clause is added to its own section: a clause for `must` takes the
text under `filter` along. -/
theorem waiting_value_not_kept :
    let query : Value := .obj [("bool", .obj [("filter", .str "later")])]
    let titled : Step := .clause (.textMatch "title" (.str "lean"))
    let adopted := (start {}).perform (.step (.setQuery query))
    let after := adopted.1.run [.step titled]
    query.at? ["bool", "filter"] = some (.str "later") ∧ adopted.2 = none ∧
      titled.Spares {} .filter ∧
      after.document.toValue.at? ["query", "bool", "filter"] ≠ some (.str "later") ∧
      after.toValue.at? ["query", "bool", "filter"] ≠ some (.str "later") := by
  intro query titled adopted after
  have hquery : query.wellFormed = true := rfl
  obtain ⟨hnone, hconfig, halone⟩ := Alone.of_setQuery (start {}) (s := .filter) hquery rfl rfl
  have hspares : titled.Spares {} .filter :=
    .of_edit (e := .append .must [.textMatch "title" (.str "lean") none]) rfl ⟨rfl, rfl⟩
  have hall : ∀ step ∈ [titled], step.Spares adopted.1.config .filter := by
    rw [hconfig]
    exact List.forall_mem_singleton.2 hspares
  have hafter := halone.run_steps hall
  have hany : [titled].any (·.installs (start {}).config) = true := rfl
  rw [hconfig, hany] at hafter
  obtain ⟨hlive, hsent⟩ := hafter.at?_toValue
  refine ⟨rfl, hnone, hspares, ?_, ?_⟩
  · intro h
    cases hlive.symm.trans h
  · intro h
    cases hsent.symm.trans h

end Builder

end SearchRequest

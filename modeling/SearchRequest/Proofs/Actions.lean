import SearchRequest.Builder

/-!
# What actions come to

The action of a step checks and writes as it goes, and when it is rejected it keeps what it wrote.
`Step.apply` tells the outcome in one piece: a new document, or a rejection. This file shows that
the two agree, for every step on every builder (`Step.run_action`). So an action that is rejected
has written nothing by then, and no action touches the configuration.

The proof goes along the actions. `Action.Carries` says that an action comes to what some check and
a change of the document come to in one piece. It holds of a write. It is kept by what leaves the
builder alone: a check, a look at the builder and a callback may go before an action of which it
holds. It is not kept by a write that goes before a check, and so it does not hold of rows of steps.
Of these only the outcome is told (`Action.ComesTo`): callbacks work on a builder of their own, of
which nothing is left when they are rejected.
-/

namespace SearchRequest

namespace Action

/-- The builder whose document has become another one, or a rejection that has left it alone. -/
def settled (b : Builder) : Checked Document → EStateM.Result Rejection Builder Unit
  | .ok d => .ok () { b with document := d }
  | .error r => .error r b

/-- The action comes to the document or to the rejection. In the second case it may leave any
builder behind. -/
def ComesTo (b : Builder) (x : Action Unit) : Checked Document → Prop
  | .ok d => x.run b = .ok () { b with document := d }
  | .error r => ∃ left, x.run b = .error r left

/-- What is told of an action is told of one that goes on like it. -/
theorem ComesTo.of_run {b : Builder} {d : Document} {x y : Action Unit} {c : Checked Document}
    (h : ComesTo ⟨b.config, d⟩ x c) (hy : y.run b = x.run ⟨b.config, d⟩) : ComesTo b y c := by
  cases c with
  | error r =>
    obtain ⟨left, hleft⟩ := h
    exact ⟨left, hy.trans hleft⟩
  | ok d' => exact hy.trans h

/-- On the builder, the action checks what `check` checks and then makes the change that the result
calls for. When it is rejected, it has changed nothing. -/
def Carries {β : Type} (b : Builder) (change : β → Document → Checked Document) (check : Checked β)
    (x : Action Unit) : Prop :=
  x.run b = settled b (check.bind (change · b.document))

namespace Carries

variable {α β : Type} {b : Builder} {change : β → Document → Checked Document}

/-- A write comes to its change. -/
theorem write {e : β} {f : Document → Document} (h : change e b.document = .ok (f b.document)) :
    Carries b change (.ok e) (Action.write f) := by
  show _ = settled b (change e b.document)
  rw [h]
  rfl

/-- A check goes before an action. -/
theorem check {c : Checked α} {g : α → Checked β} {k : α → Action Unit}
    (h : ∀ a, Carries b change (g a) (k a)) : Carries b change (c >>= g) (liftM c >>= k) := by
  cases c with
  | error r => rfl
  | ok a => exact h a

/-- Two checks that are made as one go before an action. -/
theorem both {c₁ c₂ : Checked Unit} {g : Unit → Checked β} {k : Unit → Action Unit}
    (h : Carries b change (g ()) (k ())) :
    Carries b change ((c₁ >>= fun _ => c₂) >>= g) (liftM c₁ >>= fun _ => liftM c₂ >>= k) := by
  rw [bind_assoc]
  exact check fun _ => check fun _ => h

/-- A look at the builder goes before an action. -/
theorem look {c : Checked β} {k : Builder → Action Unit} (h : Carries b change c (k b)) :
    Carries b change c (get >>= k) := h

/-- The change may work on the result of the check. -/
theorem map {c : Checked α} {f : α → β} {x : Action Unit}
    (h : Carries b (fun a => change (f a)) c x) : Carries b change (c.map f) x := by
  cases c with
  | error r => exact h
  | ok a => exact h

/-- The result of a check may be put in a form of its own. -/
theorem of_map {c : Checked α} {f : α → β} {x : Action Unit}
    (h : Carries b change (c >>= fun a => .ok (f a)) x) : Carries b change (c.map f) x := by
  cases c with
  | error r => exact h
  | ok a => exact h

/-- The query is taken out and another one put in, which is made from what was taken out. -/
theorem rewrap {e : β} {f : Value → QueryRoot Clause}
    (h : change e b.document =
      .ok { b.document with query := some (f b.document.embeddable.toValue) }) :
    Carries b change (.ok e) (takeQuery >>= fun inner => putQuery (f inner)) := by
  show _ = settled b (change e b.document)
  rw [h]
  rfl

/-- A callback that is done leaves its sub-builder, and the builder as it was. -/
theorem run_subBuilder_of_ok {x : Action Unit} {sub : Builder}
    (h : x.run (.start b.config) = .ok () sub) : (subBuilder x).run b = .ok sub b := by
  simp only [subBuilder, EStateM.run_bind, EStateM.run_get, h]
  rfl

/-- A callback that is rejected leaves its rejection alone, and the builder as it was. -/
theorem run_subBuilder_of_error {x : Action Unit} {r : Rejection} {left : Builder}
    (h : x.run (.start b.config) = .error r left) : (subBuilder x).run b = .error r b := by
  simp only [subBuilder, EStateM.run_bind, EStateM.run_get, h]
  rfl

/-- A callback goes before an action. All that is left of it is its document or its rejection. -/
theorem callback {sub : Checked Document} {g : Document → Checked β} {x : Action Unit}
    {k : Builder → Action Unit} (hsub : ComesTo (.start b.config) x sub)
    (h : ∀ d, Carries b change (g d) (k ⟨b.config, d⟩)) :
    Carries b change (sub >>= g) (subBuilder x >>= k) := by
  rw [Carries, EStateM.run_bind]
  cases sub with
  | error r =>
    obtain ⟨left, hleft⟩ := hsub
    rw [run_subBuilder_of_error hleft]
    rfl
  | ok d =>
    rw [run_subBuilder_of_ok hsub]
    exact h d

/-- The clauses of a callback are taken over by an action. -/
theorem subClauses {sub : Checked Document} {g : Document → Checked β} {x : Action Unit}
    {k : List Clause → Action Unit} (hsub : ComesTo (.start b.config) x sub)
    (h : ∀ d, Carries b change (g d) (k d.mergeable)) :
    Carries b change (sub >>= g) (Action.subClauses x >>= k) := by
  rw [Action.subClauses, bind_assoc]
  exact callback hsub h

/-- The query of a callback is taken over by an action. -/
theorem subQuery {sub : Checked Document} {g : Document → Checked β} {x : Action Unit}
    {k : QueryRoot Clause → Action Unit} (hsub : ComesTo (.start b.config) x sub)
    (h : ∀ d, Carries b change (g d) (k d.embeddable)) :
    Carries b change (sub >>= g) (Action.subQuery x >>= k) := by
  rw [Action.subQuery, bind_assoc]
  exact callback hsub h

end Carries

end Action

/-! ## Calls of one step -/

open SearchRequest.Action

/-- **A call that adds a clause** adds the clause of its check to the section of its check. -/
theorem ClauseCall.carries_action (b : Builder) (call : ClauseCall) :
    Carries b (fun r d => .ok (d.editBool (·.append .raw r.1 [r.2]))) (call.check b.config)
      call.action := by
  cases call with
  | textMatch | textMatchWith | matchPhrase | wildcard | startsWith | regexp =>
    exact .both (.write rfl)
  | fuzzy => exact .both (.check fun _ => .write rfl)
  | term => exact .both (.look (.write rfl))
  | multiMatch | queryString | geoDistance | geoPolygon =>
    exact .check fun _ => .check fun _ => .check fun _ => .write rfl
  | simpleQueryString | script | fieldExists => exact .check fun _ => .write rfl
  | simpleQueryStringIn | moreLikeThis | terms | range =>
    exact .check fun _ => .check fun _ => .write rfl
  | geoBoundingBox =>
    exact .check fun _ => .check fun _ => .check fun _ => .check fun _ => .write rfl
  | raw | rawIn => exact .write rfl

namespace AggregationCall

/-- The general call attaches what it is given, once that has passed. -/
theorem carries_aggregate {b : Builder} (name : String) (spec : Value) :
    Carries b (fun r d => .ok (d.attach r.1 r.2)) (attach name spec) (aggregate name spec) :=
  .check fun _ => .check fun _ => .write rfl

theorem carries_insertMetric {b : Builder} (context name kind field : String) :
    Carries b (fun r d => .ok (d.attach r.1 r.2)) (fieldAggregation context name kind field)
      (insertMetric context name kind field) :=
  .both (.write rfl)

/-- **A call that attaches an aggregation** attaches the specification of its check under the name
of its check. -/
theorem carries_action (b : Builder) (call : AggregationCall) :
    Carries b (fun r d => .ok (d.attach r.1 r.2)) call.check call.action := by
  cases call with
  | general name spec => exact carries_aggregate name spec
  | terms | dateHistogram | histogram | range =>
    exact .both (.check fun _ => carries_aggregate _ _)
  | filters => exact .check fun _ => .check fun _ => carries_aggregate _ _
  | nested => exact .both (carries_aggregate _ _)
  | metric m => cases m <;> exact carries_insertMetric _ _ _ _
  | percentiles name field percents =>
    cases percents with
    | none => exact .both (carries_aggregate _ _)
    | some percents => exact .both (.check fun _ => carries_aggregate _ _)

end AggregationCall

/-! ## Steps -/

namespace Step

/-- A wrapper is put around the query, once its numbers have passed. -/
theorem carries_wrap (b : Builder) (w : Wrapper) :
    Carries b (fun (e : Edit) d => e.apply d) ((wrap w).edit b.config) (wrap w).action := by
  cases w with
  | functionScore functions options =>
    rw [edit, Wrapper.check, action]
    generalize (functions.findIdx? fun f => !f.isObject) = found
    cases found with
    | none =>
      simp only [bind_assoc]
      exact .check fun _ => .check fun _ => .check fun _ => .rewrap rfl
    | some i => rfl
  | constantScore boost => exact .check fun _ => .rewrap rfl

/-- A child is attached to an aggregation that is there. -/
theorem carries_attachUnder (b : Builder) (parent name : String) (spec : Value) :
    Carries b (fun (e : Edit) d => e.apply d) (.ok (.attachUnder parent name spec)) (do
      match (← get).document.aggregation? parent with
      | some own => insertAggregation parent (.obj (Document.addChild own name spec))
      | none => throw (Fault.reject (.aggregationMissing parent) parent "sub_aggregate")) := by
  have hedit : (Edit.attachUnder parent name spec).apply b.document =
      match b.document.aggregation? parent with
      | some own => .ok (b.document.attach parent (.obj (Document.addChild own name spec)))
      | none => .error (Fault.reject (.aggregationMissing parent) parent "sub_aggregate") := by
    rw [Edit.apply, Document.attachUnder?]
    rcases b.document.aggregation? parent with _ | own <;> rfl
  refine .look ?_
  show _ = settled b ((Edit.attachUnder parent name spec).apply b.document)
  rw [hedit]
  rcases b.document.aggregation? parent with _ | own <;> rfl

mutual

/-- The action of a step carries its edit. -/
theorem carries_action (b : Builder) (s : Step) :
    Carries b (fun (e : Edit) d => e.apply d) (s.edit b.config) s.action := by
  cases s with
  | clause call => exact .map (call.carries_action b)
  | should steps | mustNot steps =>
    exact .of_map (.subClauses (comesTo_actions (.start b.config) steps) fun _ => .write rfl)
  | embed link label steps =>
    have hsub := comesTo_actions (.start b.config) steps
    cases link with
    | nested => exact .check fun _ => .subQuery hsub fun _ => .write rfl
    | hasChild => exact .check fun _ => .subQuery hsub fun _ => .write rfl
    | hasParent => exact .check fun _ => .subQuery hsub fun _ => .write rfl
  | wrap wrapper => exact carries_wrap b wrapper
  | offset | setQuery => exact .of_map (.check fun _ => .write rfl)
  | size => exact .of_map (.look (.check fun _ => .write rfl))
  | sort | sortWith | highlightField => exact .check fun _ => .check fun _ => .write rfl
  | source | highlight | minScore | searchAfter => exact .check fun _ => .write rfl
  | aggregate call => exact .map (call.carries_action b)
  | subAggregate parent name spec =>
    exact .check fun _ => .check fun _ => .check fun _ => carries_attachUnder b parent name spec
  | _ =>
    rw [action]
    exact .write rfl
termination_by structural s

/-- Steps in a row come to the document that they lead to, or to the first rejection. -/
theorem comesTo_actions (b : Builder) (steps : List Step) :
    ComesTo b (actions steps) (runAll b.config steps b.document) := by
  cases steps with
  | nil => rfl
  | cons s rest =>
    have hs : s.action.run b = settled b (s.apply b.config b.document) := carries_action b s
    rw [runAll_cons]
    rcases ha : s.apply b.config b.document with r | d
    · refine ⟨b, ?_⟩
      rw [actions, EStateM.run_bind, hs, ha]
      rfl
    · refine (comesTo_actions ⟨b.config, d⟩ rest).of_run ?_
      rw [actions, EStateM.run_bind, hs, ha]
      rfl
termination_by structural steps

end

/-- **The outcome of a step** is told in one piece by `Step.apply`: the document of the builder
becomes another one, or the step is rejected and leaves the builder as it was. -/
theorem run_action (b : Builder) (s : Step) :
    s.action.run b = settled b (s.apply b.config b.document) :=
  carries_action b s

end Step

end SearchRequest

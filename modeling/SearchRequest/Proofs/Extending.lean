import SearchRequest.Proofs.Attaching
import SearchRequest.Proofs.Lookup
import SearchRequest.Proofs.Rejecting
import SearchRequest.Proofs.Sound

/-!
# Extending an aggregation

A call that extends an aggregation looks for its parent among the aggregations at the top, and takes
one that is no object for one that is not there. In the documents of builders this makes no
difference: whatever was attached at the top was checked to be an object, and stays one when it is
extended.

* `Builder.namedObjects_run` — the aggregations of a builder are objects, after any calls.
* `Object.Put` — one member of an object is written, and the others are left alone.
* `Builder.perform_subAggregate` — when an aggregation is extended, what is wrong else, and all that
  becomes of the document. The child is put into the children, these into the specification of the
  parent, and this among the aggregations.
-/

namespace SearchRequest

/-! ## Objects with one member written -/

/-- The value is written under the key: in the key's place if it had one, else at the end. What
stands under other keys stays, and so does the order of the keys. -/
structure Object.Put (key : String) (v : Value) (before after : Object) : Prop where
  keys : after.keys = if key ∈ before.keys then before.keys else before.keys ++ [key]
  value : after.find? key = some v
  others {other : String} (h : other ≠ key) : after.find? other = before.find? other

theorem Object.put_insert (members : Object) (key : String) (v : Value) :
    Put key v members (members.insert key v) where
  keys := keys_insert members key v
  value := find?_insert_self members key v
  others h := find?_insert_of_ne members v h

/-! ## Aggregations are objects -/

/-- What is not there cannot be extended. -/
theorem Document.aggregation?_of_not_mem {d : Document} {parent : String}
    (hp : parent ∉ (d.aggregations.getD []).keys) : d.aggregation? parent = none := by
  by_contra hsome
  obtain ⟨own, hown⟩ := Option.ne_none_iff_exists'.1 hsome
  have hf := find?_of_aggregation? hown
  rw [Object.find?_eq_none_iff.2 hp] at hf
  cases hf

/-- The aggregations, if there are any, are objects under names that are not blank. -/
def Document.NamedAggregations (d : Document) : Prop :=
  ∀ aggs, d.aggregations = some aggs → aggs.NamedObjects

namespace Document.NamedAggregations

variable {d : Document} {parent : String}

/-- Every aggregation that is there can be extended. -/
theorem aggregation?_of_mem (h : d.NamedAggregations)
    (hp : parent ∈ (d.aggregations.getD []).keys) : ∃ own, d.aggregation? parent = some own := by
  rcases ha : d.aggregations with _ | aggs
  · rw [ha] at hp
    cases hp
  · rw [ha] at hp
    obtain ⟨v, hv⟩ := Option.ne_none_iff_exists'.1 (mt Object.find?_eq_none_iff.1 (not_not.2 hp))
    obtain ⟨own, rfl⟩ := Value.isObject_iff.1 ((h aggs ha).2 _ (Object.mem_of_find? hv)).2
    refine ⟨own, ?_⟩
    rw [aggregation?, ha, Option.bind_some]
    exact congrArg (Option.bind · Value.object?) hv

/-- Steps keep the aggregations objects. -/
theorem apply {config : Config} {s : Step} {d' : Document} (h : d.NamedAggregations)
    (hs : s.apply config d = .ok d') : d'.NamedAggregations := by
  obtain ⟨e, he, hd⟩ := Step.apply_eq_ok_iff.1 hs
  cases Step.asks_of_edit he with
  | reset =>
    obtain rfl := Except.ok.inj hd
    exact fun _ ha => nomatch ha
  | aggregate hr =>
    obtain rfl := Except.ok.inj hd
    obtain ⟨hname, hspec⟩ := AggregationCall.named_of_check hr
    intro aggs ha
    obtain rfl := Option.some.inj ha
    exact .insert h hname hspec
  | subAggregate hp =>
    obtain ⟨own, -, rfl⟩ := Option.map_eq_some_iff.1 (Edit.apply_attachUnder_eq_ok_iff.1 hd)
    intro aggs ha
    obtain rfl := Option.some.inj ha
    exact .insert h (Argument.aggregationName_eq_ok_iff.1 hp) rfl
  | _ =>
    obtain rfl := Except.ok.inj hd
    exact h

end Document.NamedAggregations

/-- **The aggregations of a builder** are objects, after any calls. -/
theorem Builder.namedObjects_run (config : Config) (calls : List Call) :
    ((start config).run calls).document.NamedAggregations := by
  refine (run_preserves (b := start config) ?_ fun _ ha => nomatch ha).1
  intro call _ steps _ s _ d d' hd hs
  exact hd.apply hs

/-! ## The outcome of the call -/

/-- A child is found under its name in the written document. -/
theorem Document.at?_child (d : Document) (parent : String) (own : Object) (name : String)
    (spec : Value) :
    (d.attach parent (.obj (addChild own name spec))).toValue.at?
      ["aggregations", parent, "aggs", name] = some spec := by
  have hfield : ("aggregations", some (Value.obj
      ((d.aggregations.getD []).insert parent (.obj (addChild own name spec))))) ∈
        (d.attach parent (.obj (addChild own name spec))).written := by
    simp [written, attach]
  have hchild : (Value.obj (addChild own name spec)).at? ["aggs", name] = some spec := by
    rw [Value.at?_obj, addChild, childrenKey, Object.find?_insert_self, Option.bind_some,
      Value.at?_obj, Object.find?_insert_self]
    rfl
  rw [at?_field hfield, Value.at?_obj, Object.find?_insert_self]
  exact hchild

/-- What is asked of the arguments of a call that extends an aggregation. -/
structure ChildArguments (parent name : String) (spec : Value) : Prop where
  parent : isBlank parent = false
  name : isBlank name = false
  spec : spec.isObject = true

namespace Step

variable {config : Config} {parent name : String} {spec : Value}

theorem edit_subAggregate_eq_ok_iff {e : Edit} :
    (subAggregate parent name spec).edit config = .ok e ↔
      ChildArguments parent name spec ∧ e = .attachUnder parent name spec := by
  rw [edit_eq_ok_iff]
  constructor
  · intro h
    cases h with
    | subAggregate hp hn hs =>
      exact ⟨⟨Argument.aggregationName_eq_ok_iff.1 hp, Argument.aggregationName_eq_ok_iff.1 hn,
        Argument.aggregationSpec_eq_ok_iff.1 hs⟩, rfl⟩
  · rintro ⟨⟨hp, hn, hs⟩, rfl⟩
    exact .subAggregate (Argument.aggregationName_eq_ok_iff.2 hp)
      (Argument.aggregationName_eq_ok_iff.2 hn) (Argument.aggregationSpec_eq_ok_iff.2 hs)

/-- **What is wrong with the arguments**, the names first. A blank one is reported as `name`,
whichever of both it is. -/
theorem edit_subAggregate_eq_error_iff {r : Rejection} :
    (subAggregate parent name spec).edit config = .error r ↔
      ((isBlank parent = true ∨ isBlank name = true) ∧
          Fault.aggregationNameBlank.reject "name" "sub_aggregate" = r) ∨
        (isBlank parent = false ∧ isBlank name = false ∧ spec.isObject = false ∧
          (Fault.aggregationNotObject name).reject name "sub_aggregate" = r) := by
  have hpass : ∀ e : Edit, (pure e : Checked Edit) ≠ .error r := nofun
  rw [edit]
  simp only [Checked.bind_eq_error_iff, Argument.aggregationName, Argument.aggregationSpec,
    require_eq_error_iff, require_eq_ok_iff, hpass]
  cases isBlank parent <;> cases isBlank name <;> simp

/-- Arguments are refused for other reasons than a missing parent. -/
theorem code_of_edit_subAggregate {r : Rejection}
    (h : (subAggregate parent name spec).edit config = .error r) :
    r.code ≠ .aggregationNotFound := by
  rcases edit_subAggregate_eq_error_iff.1 h with ⟨-, rfl⟩ | ⟨-, -, -, rfl⟩ <;> nofun

end Step

namespace Builder

/-- **The three outcomes** of the call: an argument is refused, the parent is missing, or the parent
is there and gets the child. -/
theorem perform_subAggregate_cases {b : Builder} (hb : b.document.NamedAggregations)
    (parent name : String) (spec : Value) :
    let after := b.perform (.step (.subAggregate parent name spec))
    let names := (b.document.aggregations.getD []).keys
    (¬ ChildArguments parent name spec ∧
        ∃ r, after = (b, some r) ∧ r.code ≠ .aggregationNotFound) ∨
      (ChildArguments parent name spec ∧ parent ∉ names ∧
        after = (b, some ((Fault.aggregationMissing parent).reject parent "sub_aggregate"))) ∨
      ChildArguments parent name spec ∧ parent ∈ names ∧
        ∃ own, b.document.aggregation? parent = some own ∧
          after = ({ b with document :=
            b.document.attach parent (.obj (Document.addChild own name spec)) }, none) := by
  intro after names
  rcases hedit : (Step.subAggregate parent name spec).edit b.config with r | e
  · refine .inl ⟨fun hargs => ?_, r, perform_of_edit_error hedit,
      Step.code_of_edit_subAggregate hedit⟩
    cases hedit.symm.trans (Step.edit_subAggregate_eq_ok_iff.2 ⟨hargs, rfl⟩)
  · obtain ⟨hargs, rfl⟩ := Step.edit_subAggregate_eq_ok_iff.1 hedit
    refine .inr ?_
    by_cases hp : parent ∈ names
    · obtain ⟨own, hown⟩ := hb.aggregation?_of_mem hp
      have hd : b.document.attachUnder? parent name spec =
          some (b.document.attach parent (.obj (Document.addChild own name spec))) := by
        rw [Document.attachUnder?, hown]
        rfl
      exact .inr ⟨hargs, hp, own, hown,
        perform_of_edit hedit (Edit.apply_attachUnder_eq_ok_iff.2 hd)⟩
    · refine .inl ⟨hargs, hp, ?_⟩
      have hnone : b.document.aggregation? parent = none := Document.aggregation?_of_not_mem hp
      have hd : (Edit.attachUnder parent name spec).apply b.document =
          .error ((Fault.aggregationMissing parent).reject parent "sub_aggregate") := by
        rw [Edit.apply, Document.attachUnder?, hnone]
        rfl
      refine (perform_of_edit_outcome hedit).trans ?_
      rw [Edit.outcome, hd]

/-- **Extending an aggregation**, after any calls. It is done exactly if parent and name are not
blank, the specification of the child is an object, and there is an aggregation of the parent's name
at the top. With its arguments passed the call is rejected for a missing parent exactly if there is
none. When it is done the child stands among the children of its parent, in the place of an earlier
one of that name; the other children that the parent brings along, the rest of its specification,
the other aggregations and the rest of the document are as they were, and so are the orders of all
the keys. -/
theorem perform_subAggregate (config : Config) (calls : List Call) (parent name : String)
    (spec : Value) :
    let b := (start config).run calls
    let aggs := b.document.aggregations.getD []
    let after := b.perform (.step (.subAggregate parent name spec))
    (after.2 = none ↔ ChildArguments parent name spec ∧ parent ∈ aggs.keys) ∧
      ((∃ r, after.2 = some r ∧ r.code = .aggregationNotFound) ↔
        ChildArguments parent name spec ∧ parent ∉ aggs.keys) ∧
      (after.2 ≠ none → after.1 = b) ∧
      (after.2 = none →
        ∃ aggs' own own' children children',
          after.1 = { b with document := { b.document with aggregations := some aggs' } } ∧
          aggs.find? parent = some (.obj own) ∧ aggs'.keys = aggs.keys ∧
          Object.Put parent (.obj own') aggs aggs' ∧
          Object.Put "aggs" (.obj children') own own' ∧
          Object.Brings own children ∧ Object.Put name spec children children' ∧
          after.1.document.toValue.at? ["aggregations", parent, "aggs", name] = some spec) := by
  intro b aggs after
  have hb : b.document.NamedAggregations := namedObjects_run config calls
  rcases perform_subAggregate_cases hb parent name spec with
    ⟨hargs, r, hafter, hcode⟩ | ⟨hargs, hp, hafter⟩ | ⟨hargs, hp, own, hown, hafter⟩
  · rw [show after = _ from hafter]
    refine ⟨⟨nofun, fun h => absurd h.1 hargs⟩, ⟨?_, fun h => absurd h.1 hargs⟩, fun _ => rfl,
      nofun⟩
    rintro ⟨r', hr, hc⟩
    obtain rfl := Option.some.inj hr
    exact absurd hc hcode
  · rw [show after = _ from hafter]
    exact ⟨⟨nofun, fun h => absurd h.2 hp⟩, ⟨fun _ => ⟨hargs, hp⟩, fun _ => ⟨_, rfl, rfl⟩⟩,
      fun _ => rfl, nofun⟩
  · rw [show after = _ from hafter]
    refine ⟨⟨fun _ => ⟨hargs, hp⟩, fun _ => rfl⟩, ⟨nofun, fun h => absurd hp h.2⟩,
      fun h => absurd rfl h, fun _ => ?_⟩
    refine ⟨_, own, _, _, _, rfl, Document.find?_of_aggregation? hown, ?_, aggs.put_insert parent _,
      own.put_insert "aggs" _, own.brings_children, Object.put_insert _ name spec, ?_⟩
    · rw [Object.keys_insert]
      exact if_pos hp
    · exact b.document.at?_child parent own name spec

/-- A text stands where the children of `price` are put, and gives way to the first of them. The
child that `rating` brings along stays. Names are told apart by their case. -/
theorem perform_subAggregate_examples :
    let price : Value := .obj [("aggs", .str "none"), ("avg", .single "field" (.str "price"))]
    let rating : Object := [("max", .obj []), ("aggs", .obj [("top", .null)])]
    let spread := Metric.stats.spec "price"
    let calls : List Call :=
      [.step (.aggregate (.general "price" price)),
       .step (.aggregate (.general "rating" (.obj rating)))]
    let b := (start {}).run calls
    let first := b.perform (.step (.subAggregate "price" "spread" spread))
    let second := b.perform (.step (.subAggregate "rating" "spread" spread))
    let missing := b.perform (.step (.subAggregate "Price" "spread" spread))
    (first.2 = none ∧
      first.1.document.toValue.at? ["aggregations", "price", "aggs", "spread"] = some spread) ∧
      (second.2 = none ∧ ∃ rating' children',
        Object.Put "aggs" (.obj children') rating rating' ∧
        Object.Put "spread" spread [("top", .null)] children' ∧
        second.1.document.toValue.at? ["aggregations", "rating", "aggs", "spread"] = some spread) ∧
      (∃ r, missing.2 = some r ∧ r.code = .aggregationNotFound) ∧ missing.1 = b := by
  intro price rating spread calls b first second missing
  have hspread : spread.isObject = true := rfl
  obtain ⟨hdone, -, -, hchild⟩ := perform_subAggregate {} calls "price" "spread" spread
  obtain ⟨hdone', -, -, hchild'⟩ := perform_subAggregate {} calls "rating" "spread" spread
  obtain ⟨-, hmissing, hsame, -⟩ := perform_subAggregate {} calls "Price" "spread" spread
  have hfirst : first.2 = none := hdone.2 ⟨⟨by decide, by decide, hspread⟩, by decide⟩
  have hsecond : second.2 = none := hdone'.2 ⟨⟨by decide, by decide, hspread⟩, by decide⟩
  obtain ⟨-, -, -, -, -, -, -, -, -, -, -, -, hat⟩ := hchild hfirst
  obtain ⟨-, own, own', children, children', -, hown, -, -, hput, hbrings, hadded, hat'⟩ :=
    hchild' hsecond
  obtain rfl : own = rating := Value.obj.inj (Option.some.inj hown).symm
  obtain rfl : children = [("top", .null)] := hbrings.object rfl
  obtain ⟨r, hr, hcode⟩ := hmissing.2 ⟨⟨by decide, by decide, hspread⟩, by decide⟩
  exact ⟨⟨hfirst, hat⟩, ⟨hsecond, own', children', hput, hadded, hat'⟩, ⟨r, hr, hcode⟩,
    hsame (by rw [hr]; exact Option.some_ne_none r)⟩

end Builder

end SearchRequest

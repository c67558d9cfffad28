import SearchRequest.Proofs.Extending

/-!
# Whom rejections blame

A rejection carries the name of the argument to blame. Most checks are told this name; the checks of
boosts and of aggregation names know only one, and blame it whatever they were asked about. Two
calls give them another argument than that one: `function_score` has its `max_boost` checked as a
boost, and `sub_aggregate` its `parent` as the name of an aggregation.

* `ScoreArgument.refused` — an argument of `function_score` was given and fails a check of its own.
* `Wrapper.check_eq_error_iff` — the call is rejected for the first such argument.
* `Builder.rejection_blames` — when the argument that is blamed is at fault, for both calls.
-/

namespace SearchRequest

/-! ## Checks in a row -/

/-- Checks in a row are failed by the first argument that fails its own. -/
theorem Checked.forM_eq_error_iff {α : Type} {check : α → Checked Unit} {refused : α → Bool}
    (h : ∀ a, check a = .ok () ↔ refused a = false) {args : List α} {r : Rejection} :
    forM args check = .error r ↔ ∃ a, args.find? refused = some a ∧ check a = .error r := by
  induction args with
  | nil => exact ⟨nofun, nofun⟩
  | cons a rest ih =>
    rw [List.forM_cons, bind_eq_error_iff]
    cases ha : refused a with
    | false =>
      rw [(h a).2 ha, List.find?_cons_of_neg (by rw [ha]; exact Bool.false_ne_true), ← ih]
      exact ⟨fun hr => hr.elim nofun fun ⟨_, _, hr⟩ => hr, fun hr => .inr ⟨(), rfl, hr⟩⟩
    | true =>
      rw [List.find?_cons_of_pos ha]
      constructor
      · rintro (hr | ⟨_, hpass, -⟩)
        · exact ⟨a, rfl, hr⟩
        · rw [(h a).1 hpass] at ha
          cases ha
      · rintro ⟨_, hfirst, hr⟩
        obtain rfl := Option.some.inj hfirst
        exact .inl hr

/-- An argument that may be left out passes when it is left out, or passes its check. -/
theorem Argument.optional_require_eq_ok_iff {α : Type} {condition : α → Bool} {fault : α → Fault}
    {field context : String} {a? : Option α} :
    optional (fun a => require (condition a) (fault a) field context) a? = .ok () ↔
      a?.any (fun a => !condition a) = false := by
  cases a? <;> simp [optional]

/-- What is wrong with an argument that may be left out. -/
theorem Argument.optional_eq_error_iff {α : Type} {check : α → Checked Unit} {a? : Option α}
    {r : Rejection} :
    optional check a? = .error r ↔ ∃ a, a? = some a ∧ check a = .error r := by
  cases a? <;> simp [optional]

/-! ## Arguments of `function_score` -/

/-- An argument of the call that wraps the query in functions. -/
inductive ScoreArgument where
  | functions
  | maxBoost
  | boost
  | minScore
deriving DecidableEq, Repr

namespace ScoreArgument

/-- The name of an argument. -/
def name : ScoreArgument → String
  | functions => "functions"
  | maxBoost => "max_boost"
  | boost => "boost"
  | minScore => "min_score"

/-- The name that is blamed for an argument. -/
def blamed : ScoreArgument → String
  | maxBoost => boost.name
  | a => a.name

/-- The arguments in the order in which they are checked. -/
def order : List ScoreArgument := [functions, maxBoost, boost, minScore]

theorem mem_order (a : ScoreArgument) : a ∈ order := by
  cases a <;> decide

/-- Names tell the arguments apart. -/
theorem name_injective {a a' : ScoreArgument} (h : a.name = a'.name) : a = a' := by
  revert h
  cases a <;> cases a' <;> decide

/-- A boost is finite and not negative. -/
def isBoost (x : Double) : Bool := x.isFinite && !x.lt .zero

section

variable (functions : List Value) (options : ScoreOptions)

/-- The argument was given and fails its own check. -/
def refused : ScoreArgument → Bool
  | .functions => functions.any fun f => !f.isObject
  | maxBoost => options.maxBoost.any fun x => !isBoost x
  | boost => options.boost.any fun x => !isBoost x
  | minScore => options.minScore.any fun x => !x.isFinite

/-- The check of an argument. -/
def check : ScoreArgument → Checked Unit
  | .functions =>
    match functions.findIdx? fun f => !f.isObject with
    | some i => .error (Fault.reject (.elementNotObject "functions" i) "functions" "function_score")
    | none => .ok ()
  | maxBoost => Argument.optional (Argument.boost · "function_score") options.maxBoost
  | boost => Argument.optional (Argument.boost · "function_score") options.boost
  | minScore => Argument.optional (Argument.finite · "min_score" "function_score") options.minScore

end

variable {functions : List Value} {options : ScoreOptions}

theorem check_eq_ok_iff (a : ScoreArgument) :
    a.check functions options = .ok () ↔ a.refused functions options = false := by
  cases a with
  | functions =>
    rw [check, refused, ← List.findIdx?_isSome]
    cases functions.findIdx? fun f => !f.isObject with
    | none => exact ⟨fun _ => rfl, fun _ => rfl⟩
    | some i => exact ⟨nofun, nofun⟩
  | maxBoost | boost | minScore => exact Argument.optional_require_eq_ok_iff

/-- Something is wrong with an argument at fault. -/
theorem exists_check_eq_error {a : ScoreArgument} (h : a.refused functions options = true) :
    ∃ r, a.check functions options = .error r := by
  rcases hc : a.check functions options with r | u
  · exact ⟨r, rfl⟩
  · rw [(check_eq_ok_iff a).1 hc] at h
    cases h

/-- Whatever is wrong with an argument, one name is blamed for it. -/
theorem field_of_check {a : ScoreArgument} {r : Rejection}
    (h : a.check functions options = .error r) : r.field = some a.blamed := by
  cases a with
  | functions =>
    rw [check] at h
    split at h
    · obtain rfl := Except.error.inj h
      rfl
    · cases h
  | maxBoost | boost | minScore =>
    obtain ⟨_, -, hx⟩ := Argument.optional_eq_error_iff.1 h
    obtain ⟨-, rfl⟩ := require_eq_error_iff.1 hx
    rfl

end ScoreArgument

/-- The call checks one argument after the other. -/
theorem Wrapper.check_functionScore (functions : List Value) (options : ScoreOptions) :
    (functionScore functions options).check =
      forM ScoreArgument.order (ScoreArgument.check functions options) := by
  have hlast (x : Checked Unit) : (x >>= fun _ => pure ()) = x := by
    cases x <;> rfl
  rw [check]
  simp only [ScoreArgument.order, ScoreArgument.check, List.forM_cons, List.forM_nil, hlast]
  cases functions.findIdx? fun f => !f.isObject <;> rfl

/-- **The call is rejected** for the first argument that fails its own check. -/
theorem Wrapper.check_eq_error_iff {functions : List Value} {options : ScoreOptions}
    {r : Rejection} :
    (functionScore functions options).check = .error r ↔
      ∃ a, ScoreArgument.order.find? (·.refused functions options) = some a ∧
        a.check functions options = .error r := by
  rw [check_functionScore]
  exact Checked.forM_eq_error_iff ScoreArgument.check_eq_ok_iff

/-! ## Rejections of `function_score` -/

namespace ScoreArgument

variable {functions : List Value} {options : ScoreOptions} {a : ScoreArgument}

/-- For an argument at fault the name of one at fault is blamed, except for the maximal boost when
the boost itself is sound. -/
theorem blamed_refused_iff (h : a.refused functions options = true) :
    (∃ a' : ScoreArgument, a'.refused functions options = true ∧ a.blamed = a'.name) ↔
      ¬ (a = maxBoost ∧ boost.refused functions options = false) := by
  rw [not_and, Bool.not_eq_false]
  by_cases hm : a = maxBoost
  · subst hm
    constructor
    · rintro ⟨a', ha', hname⟩ -
      obtain rfl : boost = a' := name_injective hname
      exact ha'
    · exact fun hb => ⟨boost, hb rfl, rfl⟩
  · have hown : a.blamed = a.name := by
      cases a with
      | maxBoost => exact absurd rfl hm
      | _ => rfl
    exact ⟨fun _ hmax => absurd hmax hm, fun _ => ⟨a, h, hown⟩⟩

/-- The maximal boost is the first argument at fault when the functions are sound and it is not. -/
theorem find?_order_eq_maxBoost_iff :
    order.find? (·.refused functions options) = some maxBoost ↔
      ScoreArgument.functions.refused functions options = false ∧
        maxBoost.refused functions options = true := by
  rw [order, List.find?_cons, List.find?_cons]
  cases ScoreArgument.functions.refused functions options with
  | true => exact ⟨nofun, nofun⟩
  | false =>
    cases hm : maxBoost.refused functions options with
    | true => exact ⟨fun _ => ⟨rfl, rfl⟩, fun _ => rfl⟩
    | false =>
      refine ⟨fun h => ?_, nofun⟩
      rw [List.find?_some h] at hm
      cases hm

end ScoreArgument

namespace Builder

variable {b : Builder} {functions : List Value} {options : ScoreOptions} {r : Rejection}

/-- What the caller is told does not depend on the builder. -/
theorem perform_functionScore_eq_some_iff :
    (b.perform (.step (.wrap (.functionScore functions options)))).2 = some r ↔
      ∃ a, ScoreArgument.order.find? (·.refused functions options) = some a ∧
        a.check functions options = .error r := by
  rw [perform_step_eq_some_iff, Step.apply_eq_error_iff_edit rfl, Step.edit,
    Checked.bind_eq_error_iff, Wrapper.check_eq_error_iff]
  exact or_iff_left fun ⟨_, _, h⟩ => nomatch h

/-- The call is rejected exactly if some argument is at fault. -/
theorem perform_functionScore_ne_none_iff :
    (b.perform (.step (.wrap (.functionScore functions options)))).2 ≠ none ↔
      ∃ a : ScoreArgument, a.refused functions options = true := by
  rw [Option.ne_none_iff_exists']
  simp only [perform_functionScore_eq_some_iff]
  constructor
  · rintro ⟨_, a, hfirst, -⟩
    exact ⟨a, List.find?_some hfirst⟩
  · rintro ⟨a, ha⟩
    obtain ⟨first, hfirst⟩ :=
      Option.isSome_iff_exists.1 (List.find?_isSome.2 ⟨a, a.mem_order, ha⟩)
    obtain ⟨r, hcheck⟩ := ScoreArgument.exists_check_eq_error (List.find?_some hfirst)
    exact ⟨r, first, hfirst, hcheck⟩

/-- Rejected for the first argument at fault, the caller is told the name of one at fault, except in
one case. -/
theorem blames_of_perform_functionScore
    (h : (b.perform (.step (.wrap (.functionScore functions options)))).2 = some r) :
    let refused (a : ScoreArgument) := a.refused functions options
    (∃ a, ScoreArgument.order.find? refused = some a ∧ r.field = some a.blamed) ∧
      ((∃ a : ScoreArgument, refused a = true ∧ r.field = some a.name) ↔
        ¬ (refused .functions = false ∧ refused .maxBoost = true ∧ refused .boost = false)) := by
  intro refused
  obtain ⟨a, hfirst, hcheck⟩ := perform_functionScore_eq_some_iff.1 h
  have hfield := ScoreArgument.field_of_check hcheck
  have hmax : a = .maxBoost ↔ refused .functions = false ∧ refused .maxBoost = true := by
    rw [← ScoreArgument.find?_order_eq_maxBoost_iff, ← Option.some_inj, ← hfirst]
  refine ⟨⟨a, hfirst, hfield⟩, ?_⟩
  calc (∃ a' : ScoreArgument, refused a' = true ∧ r.field = some a'.name)
      ↔ ∃ a' : ScoreArgument, refused a' = true ∧ a.blamed = a'.name := by
        simp only [hfield, Option.some_inj]
    _ ↔ ¬ (a = .maxBoost ∧ refused .boost = false) :=
        ScoreArgument.blamed_refused_iff (List.find?_some hfirst)
    _ ↔ ¬ (refused .functions = false ∧ refused .maxBoost = true ∧ refused .boost = false) := by
        rw [hmax, and_assoc]

end Builder

/-! ## Rejections of `sub_aggregate` -/

/-- **The call is rejected for a blank name** when one of both is blank, and blames `name` then. -/
theorem Step.apply_subAggregate_blank_iff {config : Config} {d : Document} {parent name : String}
    {spec : Value} {r : Rejection} :
    (subAggregate parent name spec).apply config d = .error r ∧ r.code = .aggregationNameEmpty ↔
      (isBlank parent = true ∨ isBlank name = true) ∧
        Fault.aggregationNameBlank.reject "name" "sub_aggregate" = r := by
  constructor
  · rintro ⟨h, hcode⟩
    rcases Checked.bind_eq_error_iff.1 h with hedit | ⟨e, hedit, hd⟩
    · rcases edit_subAggregate_eq_error_iff.1 hedit with hblank | ⟨-, -, -, rfl⟩
      · exact hblank
      · cases hcode
    · -- with its arguments passed, the call is rejected for a missing parent only
      cases asks_of_edit hedit
      rw [Edit.apply] at hd
      split at hd
      · cases hd
      · obtain rfl := Except.error.inj hd
        cases hcode
  · intro hblank
    refine ⟨Checked.bind_eq_error_iff.2 (.inl (edit_subAggregate_eq_error_iff.2 (.inl hblank))), ?_⟩
    rw [← hblank.2]
    rfl

/-! ## Both calls -/

namespace Builder

/-- **The blamed argument.** `function_score` is rejected when an argument that was given fails its
own check, and for the first such one in the order of the checks. The caller is told the name of an
argument at fault, except in one case: the functions are sound, the maximal boost is not, and the
boost, which is blamed for it, is sound or was not given.

`sub_aggregate` is rejected for a blank name when `parent` or `name` is blank. It is always `name`
that is blamed, which is right only if `name` is blank. -/
theorem rejection_blames (b : Builder) (functions : List Value) (options : ScoreOptions)
    (parent name : String) (spec : Value) :
    let refused (a : ScoreArgument) := a.refused functions options
    let scored := (b.perform (.step (.wrap (.functionScore functions options)))).2
    let child := (b.perform (.step (.subAggregate parent name spec))).2
    (scored ≠ none ↔ ∃ a, refused a = true) ∧
      (∀ r, scored = some r →
        (∃ a, ScoreArgument.order.find? refused = some a ∧ r.field = some a.blamed) ∧
          ((∃ a : ScoreArgument, refused a = true ∧ r.field = some a.name) ↔
            ¬ (refused .functions = false ∧ refused .maxBoost = true ∧
              refused .boost = false))) ∧
      ((∃ r, child = some r ∧ r.code = .aggregationNameEmpty) ↔
        isBlank parent = true ∨ isBlank name = true) ∧
      ∀ r, child = some r → r.code = .aggregationNameEmpty →
        r.field = some "name" ∧
          ((r.field = some "name" → isBlank name = true) ∧
            (r.field = some "parent" → isBlank parent = true) ↔ isBlank name = true) := by
  intro refused scored child
  have hchild (r : Rejection) : child = some r ∧ r.code = .aggregationNameEmpty ↔
      (isBlank parent = true ∨ isBlank name = true) ∧
        Fault.aggregationNameBlank.reject "name" "sub_aggregate" = r :=
    (and_congr_left' perform_step_eq_some_iff).trans Step.apply_subAggregate_blank_iff
  refine ⟨perform_functionScore_ne_none_iff, fun r => blames_of_perform_functionScore, ⟨?_, ?_⟩,
    fun r hr hcode => ?_⟩
  · rintro ⟨r, hr⟩
    exact ((hchild r).1 hr).1
  · exact fun hblank => ⟨_, (hchild _).2 ⟨hblank, rfl⟩⟩
  · obtain ⟨-, rfl⟩ := (hchild r).1 ⟨hr, hcode⟩
    refine ⟨rfl, fun h => h.1 rfl, fun hn => ⟨fun _ => hn, fun h => ?_⟩⟩
    exact absurd (Option.some.inj h) (by decide)

/-- The maximal boost is -1, and a boost is blamed that was not given; the parent is blank, and the
name is blamed. -/
theorem rejection_blames_another :
    let options : ScoreOptions := { maxBoost := some ⟨0xBFF0000000000000⟩ }
    let scored := ((start {}).perform (.step (.wrap (.functionScore [] options)))).2
    let child := ((start {}).perform (.step (.subAggregate " " "prices" (.obj [])))).2
    (∃ r, scored = some r ∧
        ¬ ∃ a : ScoreArgument, a.refused [] options = true ∧ r.field = some a.name) ∧
      ∃ r, child = some r ∧ r.code = .aggregationNameEmpty ∧ r.field = some "name" ∧
        isBlank "prices" = false := by
  refine ⟨⟨_, rfl, ?_⟩, _, rfl, rfl, rfl, by decide⟩
  rintro ⟨a, ha, hname⟩
  obtain rfl : ScoreArgument.boost = a := ScoreArgument.name_injective (Option.some.inj hname)
  cases ha

end Builder

end SearchRequest

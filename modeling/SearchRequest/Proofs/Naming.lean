import SearchRequest.Proofs.Run

/-!
# Checks name the operation that asks

Every check is told which operation asks, and what it finds wrong it reports in the name of that
operation. So does an operation that is made of checks, when it hands its own name to all of them.

* `Checked.Names` — whatever is found wrong is reported in the given name. Checks in a row are
  taken apart with `Checked.Names.bind`, which knows at each check that those before it passed.
* `ClauseCall.names_check`, `AggregationCall.names_check` — the calls. Most aggregations are handed
  on to the general call in the end, which would report in a name of its own. It finds nothing
  wrong any more, because the helper has checked the same already.
-/

namespace SearchRequest

/-! ## Reports in the name of an operation -/

namespace Checked

variable {α β : Type} {context : String}

/-- Whatever the check finds wrong, it reports in the given name. -/
def Names (context : String) (x : Checked α) : Prop := ∀ r, x = .error r → r.context = context

namespace Names

theorem ok (a : α) : Names context (.ok a) := nofun

theorem reject (fault : Fault) (field context : String) :
    Names context (.error (fault.reject field context) : Checked α) := by
  intro r h
  obtain rfl := Except.error.inj h
  rfl

/-- **Checks in a row**: the second one counts only when the first one passes. -/
theorem bind {x : Checked α} {f : α → Checked β} (h : Names context x)
    (hf : ∀ a, x = .ok a → Names context (f a)) : Names context (x >>= f) := by
  intro r hr
  rcases bind_eq_error_iff.1 hr with hx | ⟨a, hx, hr⟩
  · exact h r hx
  · exact hf a hx r hr

theorem map {x : Checked α} {f : α → β} (h : Names context x) : Names context (x.map f) :=
  fun r hr => h r (map_eq_error_iff.1 hr)

/-- What passes reports nothing, in whatever name. -/
theorem of_eq_ok {x : Checked α} {a : α} (h : x = .ok a) : Names context x := h ▸ ok a

end Names

end Checked

open Checked (Names)

/-! ## Arguments -/

theorem names_require (condition : Bool) (fault : Fault) (field context : String) :
    Names context (require condition fault field context) := by
  cases condition with
  | true => exact .ok ()
  | false => exact .reject fault field context

namespace Argument

variable (context : String)

theorem names_optional {α : Type} {check : α → Checked Unit}
    (h : ∀ a, Names context (check a)) (a? : Option α) : Names context (optional check a?) := by
  cases a? with
  | none => exact .ok ()
  | some a => exact h a

theorem names_queryValue (value : Value) (field : String) :
    Names context (queryValue value field context) := by
  cases value with
  | null => exact .reject .valueMissing field context
  | str s => exact names_require _ _ field context
  | _ => exact .ok ()

theorem names_stringList (items : List String) (argument : String) :
    Names context (stringList items argument context) := by
  refine .bind (names_require _ _ argument context) fun _ _ => ?_
  split
  · exact .reject _ argument context
  · exact .ok ()

theorem names_offset (given : Int) : Names context (offset given context) := by
  cases given with
  | ofNat n => exact .ok n
  | negSucc n => exact .reject _ "from" context

theorem names_size (given : Int) (limit : Nat) : Names context (size given limit context) := by
  cases given with
  | ofNat n =>
    rw [size]
    split
    · exact .ok n
    · exact .reject _ "size" context
  | negSucc n => exact .reject _ "size" context

theorem names_positive (given : Int) (argument : String) :
    Names context (positive given argument context) := by
  cases given with
  | ofNat n =>
    cases n with
    | zero => exact .reject _ argument context
    | succ n => exact .ok (n + 1)
  | negSucc n => exact .reject _ argument context

theorem names_range (spec : Value) (field : String) :
    Names context (range spec field context) := by
  cases spec with
  | obj bounds =>
    refine .bind (names_require _ _ field context) fun _ _ =>
      .bind (names_require _ _ field context) fun _ _ => ?_
    split
    · exact .reject _ field context
    · exact .ok bounds
  | _ => exact .reject .rangeNotObject field context

end Argument

theorem MatchStrategy.names_parse (given : Option String) (context : String) :
    Names context (parse given context) := by
  cases given with
  | none => exact .ok none
  | some token =>
    rw [parse]
    split
    · exact .ok _
    · exact .reject _ "type" context

theorem SortOrder.names_parse (given context : String) : Names context (parse given context) := by
  rw [parse]
  split
  · exact .ok _
  · exact .reject _ "order" context

namespace GeoPoint

theorem names_check (p : GeoPoint) (context : String) : Names context (p.check context) :=
  .bind (names_require _ _ "lat" context) fun _ _ => names_require _ _ "lon" context

theorem names_checkAll (context : String) (ps : List GeoPoint) :
    Names context (checkAll context ps) := by
  induction ps with
  | nil => exact .ok ()
  | cons p rest ih => exact .bind (p.names_check context) fun _ _ => ih

end GeoPoint

theorem Wrapper.names_check (w : Wrapper) : Names w.kind w.check := by
  cases w with
  | constantScore boost => exact names_require _ _ _ _
  | functionScore functions options =>
    have hboost (x? : Option Double) :
        Names "function_score" (Argument.optional (Argument.boost · "function_score") x?) :=
      Argument.names_optional _ (fun _ => names_require _ _ _ _) x?
    rw [check]
    split
    · exact .reject _ "functions" "function_score"
    · exact .bind (hboost _) fun _ _ => .bind (hboost _) fun _ _ =>
        Argument.names_optional _ (fun _ => names_require _ _ _ _) _

theorem QueryRoot.names_adopt {C : Type} (raw : Value → C) (v : Value) :
    Names "set_query" (adopt raw v) := by
  cases v with
  | obj members =>
    rw [adopt]
    split
    · exact .ok _
    · rename_i body _
      split
      · exact .ok _
      · rename_i r hr
        intro r' h
        obtain rfl := Except.error.inj h
        cases body with
        | obj => cases hr
        | _ => exact Names.reject .boolNotObject "query" "set_query" r hr
  | _ => exact .reject .queryNotObject "query" "set_query"

/-! ## Calls for clauses -/

namespace ClauseCall

theorem names_fieldAndValue (field : String) (value : Value) (context : String) :
    Names context (fieldAndValue field value context) :=
  .bind (names_require _ _ field context) fun _ _ => Argument.names_queryValue context value field

/-- **Calls for clauses** are rejected in their own name. -/
theorem names_check (config : Config) (call : ClauseCall) :
    Names call.name (call.check config) := by
  cases call with
  | textMatch | textMatchWith | matchPhrase | wildcard | startsWith | regexp | term =>
    exact .bind (names_fieldAndValue _ _ _) fun _ _ => .ok _
  | multiMatch =>
    exact .bind (Argument.names_stringList _ _ _) fun _ _ =>
      .bind (Argument.names_queryValue _ _ _) fun _ _ =>
        .bind (MatchStrategy.names_parse _ _) fun _ _ => .ok _
  | fuzzy =>
    exact .bind (names_fieldAndValue _ _ _) fun _ _ =>
      .bind (Argument.names_optional _ (fun _ => names_require _ _ _ _) _) fun _ _ => .ok _
  | queryString =>
    exact .bind (Argument.names_queryValue _ _ _) fun _ _ =>
      .bind (Argument.names_optional _ (fun _ => names_require _ _ _ _) _) fun _ _ =>
        .bind (Argument.names_optional _ (fun _ => Argument.names_stringList _ _ _) _) fun _ _ =>
          .ok _
  | simpleQueryString | script =>
    exact .bind (Argument.names_queryValue _ _ _) fun _ _ => .ok _
  | simpleQueryStringIn =>
    exact .bind (Argument.names_queryValue _ _ _) fun _ _ =>
      .bind (Argument.names_stringList _ _ _) fun _ _ => .ok _
  | moreLikeThis =>
    exact .bind (Argument.names_stringList _ _ _) fun _ _ =>
      .bind (Argument.names_queryValue _ _ _) fun _ _ => .ok _
  | terms =>
    exact .bind (names_require _ _ _ _) fun _ _ => .bind (names_require _ _ _ _) fun _ _ => .ok _
  | range =>
    exact .bind (names_require _ _ _ _) fun _ _ =>
      .bind (Argument.names_range _ _ _) fun _ _ => .ok _
  | fieldExists => exact .bind (names_require _ _ _ _) fun _ _ => .ok _
  | geoDistance =>
    exact .bind (names_require _ _ _ _) fun _ _ => .bind (GeoPoint.names_check _ _) fun _ _ =>
      .bind (names_require _ _ _ _) fun _ _ => .ok _
  | geoBoundingBox =>
    exact .bind (names_require _ _ _ _) fun _ _ => .bind (GeoPoint.names_check _ _) fun _ _ =>
      .bind (GeoPoint.names_check _ _) fun _ _ => .bind (names_require _ _ _ _) fun _ _ => .ok _
  | geoPolygon =>
    exact .bind (names_require _ _ _ _) fun _ _ => .bind (names_require _ _ _ _) fun _ _ =>
      .bind (GeoPoint.names_checkAll _ _) fun _ _ => .ok _
  | raw | rawIn => exact .ok _

end ClauseCall

/-! ## Calls for aggregations -/

namespace AggregationCall

theorem names_attach (name : String) (spec : Value) : Names "aggregate" (attach name spec) :=
  .bind (names_require _ _ "name" "aggregate") fun _ _ =>
    .bind (names_require _ _ name "aggregate") fun _ _ => .ok (name, spec)

/-- The general call finds nothing wrong with what a helper hands on to it. -/
theorem names_attach_of_checked {name : String} {spec : Value} (context : String)
    (hn : isBlank name = false) (hs : spec.isObject = true) :
    Names context (attach name spec) :=
  .of_eq_ok (attach_eq_ok_iff.2 ⟨⟨hn, hs⟩, rfl⟩)

/-- A helper checks its name and its field, and goes on with a name that passes. -/
theorem names_nameAndField_bind {α : Type} {name field context : String} {f : Unit → Checked α}
    (h : isBlank name = false → Names context (f ())) :
    Names context (nameAndField name field context >>= f) := by
  refine .bind (.bind (names_require _ _ _ _) fun _ _ => names_require _ _ _ _) fun _ hok => h ?_
  obtain ⟨_, hname, -⟩ := Checked.bind_eq_ok_iff.1 hok
  exact Argument.aggregationName_eq_ok_iff.1 hname

theorem names_percentages (percents : List Double) (context : String) :
    Names context (percentages percents context) := by
  refine .bind (names_require _ _ _ _) fun _ _ => ?_
  split
  · exact .reject _ "percents" context
  · exact .ok ()

/-- **Calls for aggregations** are rejected in their own name. -/
theorem names_check (call : AggregationCall) : Names call.callName call.check := by
  cases call with
  | general name spec => exact names_attach name spec
  | terms | histogram =>
    exact names_nameAndField_bind fun hn =>
      .bind (Argument.names_positive _ _ _) fun _ _ => names_attach_of_checked _ hn rfl
  | dateHistogram | range =>
    exact names_nameAndField_bind fun hn =>
      .bind (names_require _ _ _ _) fun _ _ => names_attach_of_checked _ hn rfl
  | filters =>
    exact .bind (names_require _ _ _ _) fun _ hname =>
      .bind (names_require _ _ _ _) fun _ _ =>
        names_attach_of_checked _ (Argument.aggregationName_eq_ok_iff.1 hname) rfl
  | nested => exact names_nameAndField_bind fun hn => names_attach_of_checked _ hn rfl
  | metric m => cases m <;> exact names_nameAndField_bind fun _ => .ok _
  | percentiles name field percents =>
    refine names_nameAndField_bind fun hn => ?_
    cases percents with
    | none => exact names_attach_of_checked _ hn rfl
    | some percents =>
      exact .bind (names_percentages percents _) fun _ _ => names_attach_of_checked _ hn rfl

end AggregationCall

end SearchRequest

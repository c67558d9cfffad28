import SearchRequest.Json.Value
import SearchRequest.Rejection
import SearchRequest.Text.Blank

/-!
# Checks of single arguments

A check takes the argument, the name to blame and the operation that asks, and passes or raises a
`Rejection`. Checks are built from `require`; each has a lemma that says exactly when it passes.
-/

namespace SearchRequest

/-- Pass when the condition holds, else raise the fault. -/
def require (condition : Bool) (fault : Fault) (field context : String) : Checked Unit :=
  if condition then .ok () else .error (fault.reject field context)

@[simp] theorem require_eq_ok_iff {condition : Bool} {fault : Fault} {field context : String}
    {u : Unit} : require condition fault field context = .ok u ↔ condition = true := by
  cases condition <;> simp [require]

@[simp] theorem require_eq_error_iff {condition : Bool} {fault : Fault} {field context : String}
    {r : Rejection} :
    require condition fault field context = .error r ↔
      condition = false ∧ fault.reject field context = r := by
  cases condition <;> simp [require]

namespace Argument

/-- Check an argument that may be left out. -/
def optional {α : Type} (check : α → Checked Unit) : Option α → Checked Unit
  | some a => check a
  | none => .ok ()

/-! ## Names and texts -/

/-- A field name is not blank. -/
def fieldName (field context : String) : Checked Unit :=
  require (!isBlank field) .fieldNameBlank field context

/-- The name of an aggregation is not blank. -/
def aggregationName (name context : String) : Checked Unit :=
  require (!isBlank name) .aggregationNameBlank "name" context

/-- A text argument is not blank. -/
def nonBlank (text argument context : String) : Checked Unit :=
  require (!isBlank text) (.textBlank argument) argument context

/-! ## Values -/

/-- A query value is not null, and not a blank string. -/
def queryValue (value : Value) (field context : String) : Checked Unit :=
  match value with
  | .null => .error (Fault.valueMissing.reject field context)
  | .str s => require (!isBlank s) .valueBlank field context
  | _ => .ok ()

/-- The specification of an aggregation is an object. -/
def aggregationSpec (spec : Value) (name context : String) : Checked Unit :=
  require spec.isObject (.aggregationNotObject name) name context

/-! ## Lists -/

/-- A list argument is not empty. -/
def nonEmpty {α : Type} (items : List α) (argument context : String) : Checked Unit :=
  require (!items.isEmpty) (.listEmpty argument) argument context

/-- The values of a terms filter are not empty. -/
def termsValues (values : List Value) (field context : String) : Checked Unit :=
  require (!values.isEmpty) .termsEmpty field context

/-- A list of strings is not empty and holds no blank one; the first blank one is reported. -/
def stringList (items : List String) (argument context : String) : Checked Unit := do
  nonEmpty items argument context
  match items.findIdx? isBlank with
  | some i => .error (Fault.reject (.elementBlank argument i) argument context)
  | none => .ok ()

/-! ## Numbers -/

/-- A result offset is not negative. -/
def offset (given : Int) (context : String) : Checked Nat :=
  match given with
  | .ofNat n => .ok n
  | given => .error (Fault.reject (.offsetNegative given) "from" context)

/-- A page size is not negative, and at most the result window. -/
def size (given : Int) (limit : Nat) (context : String) : Checked Nat :=
  match given with
  | .ofNat n =>
    if n ≤ limit then .ok n else .error (Fault.reject (.sizeTooLarge limit n) "size" context)
  | given => .error (Fault.reject (.sizeNegative given) "size" context)

/-- A count is positive. -/
def positive (given : Int) (argument context : String) : Checked Nat :=
  match given with
  | .ofNat (n + 1) => .ok (n + 1)
  | given => .error (Fault.reject (.integerNotPositive argument given) argument context)

/-- A boost is finite and not negative. -/
def boost (given : Double) (context : String) : Checked Unit :=
  require (given.isFinite && !given.lt .zero) (.boostInvalid given) "boost" context

/-- A number is finite. -/
def finite (given : Double) (argument context : String) : Checked Unit :=
  require given.isFinite (.numberNotFinite argument given) argument context

/-! ## When the checks pass -/

@[simp] theorem optional_eq_ok_iff {α : Type} {check : α → Checked Unit} {a? : Option α}
    {u : Unit} : optional check a? = .ok u ↔ ∀ a, a? = some a → check a = .ok u := by
  cases a? <;> simp [optional]

@[simp] theorem fieldName_eq_ok_iff {field context : String} {u : Unit} :
    fieldName field context = .ok u ↔ isBlank field = false := by
  simp [fieldName]

@[simp] theorem aggregationName_eq_ok_iff {name context : String} {u : Unit} :
    aggregationName name context = .ok u ↔ isBlank name = false := by
  simp [aggregationName]

@[simp] theorem nonBlank_eq_ok_iff {text argument context : String} {u : Unit} :
    nonBlank text argument context = .ok u ↔ isBlank text = false := by
  simp [nonBlank]

@[simp] theorem queryValue_eq_ok_iff {value : Value} {field context : String} {u : Unit} :
    queryValue value field context = .ok u ↔
      value ≠ .null ∧ ∀ s, value = .str s → isBlank s = false := by
  cases value <;> simp [queryValue]

@[simp] theorem aggregationSpec_eq_ok_iff {spec : Value} {name context : String} {u : Unit} :
    aggregationSpec spec name context = .ok u ↔ spec.isObject = true := by
  simp [aggregationSpec]

@[simp] theorem nonEmpty_eq_ok_iff {α : Type} {items : List α} {argument context : String}
    {u : Unit} : nonEmpty items argument context = .ok u ↔ items ≠ [] := by
  cases items <;> simp [nonEmpty]

@[simp] theorem termsValues_eq_ok_iff {values : List Value} {field context : String} {u : Unit} :
    termsValues values field context = .ok u ↔ values ≠ [] := by
  cases values <;> simp [termsValues]

@[simp] theorem stringList_eq_ok_iff {items : List String} {argument context : String} {u : Unit} :
    stringList items argument context = .ok u ↔
      items ≠ [] ∧ ∀ s ∈ items, isBlank s = false := by
  cases items with
  | nil => simp [stringList, nonEmpty, require, bind, Except.bind]
  | cons s rest =>
    simp only [stringList, nonEmpty, require, List.isEmpty_cons, Bool.not_false, if_true, bind,
      Except.bind]
    cases h : (s :: rest).findIdx? isBlank with
    | none => simpa [List.findIdx?_eq_none_iff] using h
    | some i =>
      have := List.findIdx?_eq_some_iff_getElem.1 h
      obtain ⟨hlt, hb, -⟩ := this
      simp only [reduceCtorEq, false_iff, not_and]
      intro _ hall
      have := hall _ (List.getElem_mem hlt)
      rw [hb] at this
      cases this

@[simp] theorem boost_eq_ok_iff {given : Double} {context : String} {u : Unit} :
    boost given context = .ok u ↔ given.isFinite = true ∧ given.lt .zero = false := by
  simp [boost]

@[simp] theorem finite_eq_ok_iff {given : Double} {argument context : String} {u : Unit} :
    finite given argument context = .ok u ↔ given.isFinite = true := by
  simp [finite]

theorem offset_eq_ok_iff {given : Int} {context : String} {n : Nat} :
    offset given context = .ok n ↔ given = n := by
  cases given with
  | ofNat m => simp only [offset, Except.ok.injEq, Int.ofNat_eq_natCast, Int.natCast_inj]
  | negSucc m => simp [offset]

theorem size_eq_ok_iff {given : Int} {limit : Nat} {context : String} {n : Nat} :
    size given limit context = .ok n ↔ given = n ∧ n ≤ limit := by
  cases given with
  | ofNat m =>
    by_cases h : m ≤ limit
    · simp only [size, if_pos h, Except.ok.injEq, Int.ofNat_eq_natCast, Int.natCast_inj]
      constructor
      · rintro rfl; exact ⟨rfl, h⟩
      · exact fun hm => hm.1
    · simp only [size, if_neg h, reduceCtorEq, Int.ofNat_eq_natCast, Int.natCast_inj, false_iff,
        not_and]
      rintro rfl; exact h
  | negSucc m => simp [size]

theorem positive_eq_ok_iff {given : Int} {argument context : String} {n : Nat} :
    positive given argument context = .ok n ↔ given = n ∧ 0 < n := by
  cases given with
  | ofNat m =>
    cases m with
    | zero => simp [positive]; omega
    | succ m => simp [positive]; omega
  | negSucc m => simp [positive]

end Argument

end SearchRequest

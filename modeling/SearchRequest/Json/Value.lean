import SearchRequest.Number.Double

/-!
# JSON values

Requests are made of JSON values. Two points of this type matter to the rest of the library:

* integers and floating numbers are different kinds of value, `3` is not `3.0`;
* the members of an object stand in a definite order, the order in which their keys first came.

Main definitions:

* `Value` — the values. `Object` — the members of an object, a list of keys with their values.
* `Object.find?`, `Object.insert`, `Object.erase` — look up, write in place or at the end, remove.
  Each has its lemmas beside it; they hold for any list of members, repeated keys included, unless
  a lemma says otherwise.
* `Value.record` — an object of the fields that are present, in the order of the list.
* `Value.same` — equality that does not regard the order of members and compares floating numbers
  by value.
-/

namespace SearchRequest

/-- A JSON value. -/
inductive Value where
  | null
  | bool (b : Bool)
  | int (n : Int)
  | float (x : Double)
  | str (s : String)
  | arr (items : List Value)
  | obj (members : List (String × Value))
deriving Inhabited, Repr

/-- The members of an object, in order. -/
abbrev Object := List (String × Value)

/-! ## Members of an object -/

namespace Object

/-- The value under the key. -/
def find? : Object → String → Option Value
  | [], _ => none
  | (k, v) :: rest, key => if k = key then some v else find? rest key

/-- Write a value under the key: in the key's place if it has one, else at the end. -/
def insert : Object → String → Value → Object
  | [], key, value => [(key, value)]
  | (k, v) :: rest, key, value =>
    if k = key then (k, value) :: rest else (k, v) :: insert rest key value

/-- Remove the key; the other members keep their order. -/
def erase : Object → String → Object
  | [], _ => []
  | (k, v) :: rest, key => if k = key then erase rest key else (k, v) :: erase rest key

/-- The keys, in order. -/
def keys (members : Object) : List String := members.map Prod.fst

/-- The object has the key. -/
def contains (members : Object) (key : String) : Bool := (members.find? key).isSome

@[simp] theorem find?_nil (key : String) : find? [] key = none := rfl

@[simp] theorem keys_nil : keys [] = [] := rfl

@[simp] theorem keys_cons (k : String) (v : Value) (rest : Object) :
    keys ((k, v) :: rest) = k :: keys rest := rfl

theorem find?_cons (k key : String) (v : Value) (rest : Object) :
    find? ((k, v) :: rest) key = if k = key then some v else find? rest key := rfl

/-- What was written is found. -/
@[simp] theorem find?_insert_self (members : Object) (key : String) (value : Value) :
    (members.insert key value).find? key = some value := by
  induction members with
  | nil => simp [insert, find?]
  | cons m rest ih =>
    obtain ⟨k, v⟩ := m
    by_cases h : k = key <;> simp [insert, find?, h, ih]

/-- Writing under one key leaves the others. -/
theorem find?_insert_of_ne (members : Object) {key other : String} (value : Value)
    (h : other ≠ key) : (members.insert key value).find? other = members.find? other := by
  induction members with
  | nil => simp [insert, find?, Ne.symm h]
  | cons m rest ih =>
    obtain ⟨k, v⟩ := m
    by_cases hk : k = key
    · subst hk
      simp [insert, find?, Ne.symm h]
    · simp only [insert, if_neg hk, find?_cons, ih]

/-- A key is found exactly when it is among the keys. -/
theorem find?_eq_none_iff {members : Object} {key : String} :
    members.find? key = none ↔ key ∉ members.keys := by
  induction members with
  | nil => simp
  | cons m rest ih =>
    obtain ⟨k, v⟩ := m
    by_cases h : k = key
    · simp [find?_cons, h]
    · simp [find?_cons, h, ih, Ne.symm h]

/-- A new key goes to the end, and a present one moves nothing. -/
theorem keys_insert (members : Object) (key : String) (value : Value) :
    (members.insert key value).keys =
      if key ∈ members.keys then members.keys else members.keys ++ [key] := by
  induction members with
  | nil => rfl
  | cons m rest ih =>
    obtain ⟨k, v⟩ := m
    by_cases h : k = key
    · simp [insert, h]
    · by_cases hm : key ∈ keys rest <;> simp [insert, h, ih, hm, Ne.symm h]

/-- Writing under a key that is absent appends the member. -/
theorem insert_of_not_mem {members : Object} {key : String} (value : Value)
    (h : key ∉ members.keys) : members.insert key value = members ++ [(key, value)] := by
  induction members with
  | nil => rfl
  | cons m rest ih =>
    obtain ⟨k, v⟩ := m
    simp only [keys_cons, List.mem_cons, not_or] at h
    rw [insert, if_neg (Ne.symm h.1), ih h.2, List.cons_append]

/-- A removed key is not found. -/
@[simp] theorem find?_erase_self (members : Object) (key : String) :
    (members.erase key).find? key = none := by
  induction members with
  | nil => rfl
  | cons m rest ih =>
    obtain ⟨k, v⟩ := m
    by_cases h : k = key
    · simp only [erase, if_pos h, ih]
    · simp only [erase, if_neg h, find?_cons, ih]

/-- Removing one key leaves the others. -/
theorem find?_erase_of_ne (members : Object) {key other : String} (h : other ≠ key) :
    (members.erase key).find? other = members.find? other := by
  induction members with
  | nil => rfl
  | cons m rest ih =>
    obtain ⟨k, v⟩ := m
    by_cases hk : k = key
    · subst hk
      simp only [erase, if_pos, find?_cons, if_neg (Ne.symm h), ih]
    · simp only [erase, if_neg hk, find?_cons, ih]

end Object

/-! ## Building and inspecting values -/

namespace Value

/-- A natural number. -/
def nat (n : Nat) : Value := .int n

/-- A floating number. JSON has no infinities and no "not a number": these are written `null`. -/
def ofDouble (x : Double) : Value := if x.isFinite then .float x else .null

/-- A list of strings. -/
def strings (items : List String) : Value := .arr (items.map .str)

/-- An object with one member. -/
def single (key : String) (value : Value) : Value := .obj [(key, value)]

/-- An object of the fields that are present, in the order of the list. -/
def record (fields : List (String × Option Value)) : Value :=
  .obj (fields.filterMap fun f => f.2.map (f.1, ·))

/-- The members of an object. -/
def object? : Value → Option Object
  | .obj members => some members
  | _ => none

/-- The value is an object. -/
def isObject (v : Value) : Bool := v.object?.isSome

theorem isObject_iff {v : Value} : v.isObject = true ↔ ∃ members, v = .obj members := by
  cases v <;> simp [isObject, object?]

/-! ## Equality up to order -/

mutual

/-- The two values agree, up to the order of members. An integer never agrees with a floating
number, and floating numbers agree when their values do. -/
def same : Value → Value → Bool
  | .null, .null => true
  | .bool a, .bool b => a == b
  | .int a, .int b => a == b
  | .float a, .float b => a.same b
  | .str a, .str b => a == b
  | .arr a, .arr b => sameItems a b
  | .obj a, .obj b => a.length == b.length && sameMembers a b
  | _, _ => false
termination_by structural v => v

/-- The two lists agree item by item. -/
def sameItems : List Value → List Value → Bool
  | [], [] => true
  | v :: rest, w :: others => v.same w && sameItems rest others
  | _, _ => false
termination_by structural vs => vs

/-- Each member has a counterpart under its key. -/
def sameMembers : List (String × Value) → Object → Bool
  | [], _ => true
  | (k, v) :: rest, others =>
    (match others.find? k with
      | some w => v.same w
      | none => false) && sameMembers rest others
termination_by structural ms => ms

end

end Value

namespace Object

/-- The two objects agree, up to the order of members. -/
def same (a b : Object) : Bool := a.length == b.length && Value.sameMembers a b

end Object

end SearchRequest

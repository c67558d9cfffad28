import SearchRequest.Query.BoolQuery

/-!
# Query roots

The root of a query holds a bool query, other queries under their names, or both. Adding a clause
after the query was wrapped installs a new bool query beside the wrapper and not inside it.

* `QueryRoot.ensureBool` — make the bool query and its four sections present.
* `QueryRoot.finalized` — the root as it is sent: empty sections are gone, and a bool query without
  any key left turns the whole root, siblings included, into the query that matches everything.
* `QueryRoot.adopt`, `QueryRoot.render` — from and to JSON.
-/

namespace SearchRequest

/-- A bool query, and other queries under their names. -/
structure QueryRoot (C : Type) where
  bool : Option (BoolQuery C) := none
  named : Object := []
deriving Inhabited, Repr

namespace QueryRoot

/-- The key of the bool query. -/
def boolKey : String := "bool"

/-- The name of the query that matches everything. -/
def matchAllKey : String := "match_all"

variable {C D : Type}

/-- An empty bool query with its sections installed. -/
def wrapper : QueryRoot C := { bool := some .wrapper }

/-- One query under its name. -/
def ofNamed (kind : String) (body : Value) : QueryRoot C := { named := [(kind, body)] }

/-- The query that matches everything. -/
def matchAll : QueryRoot C := ofNamed matchAllKey (.obj [])

/-- The named query of the given kind. The bool query is not among these. -/
def get? (q : QueryRoot C) (kind : String) : Option Value := q.named.find? kind

/-- The root is the query that matches everything, whatever its body. -/
def isMatchAll (q : QueryRoot C) : Bool :=
  q.bool.isNone && q.named.length == 1 && q.named.contains matchAllKey

/-- The bool query, installed with its four sections if need be. Named queries are left alone. -/
def ensuredBool (raw : Value → C) (q : QueryRoot C) : BoolQuery C :=
  (q.bool.getD {}).installAll raw

/-- Make the bool query and its four sections present. -/
def ensureBool (raw : Value → C) (q : QueryRoot C) : QueryRoot C :=
  { q with bool := some (q.ensuredBool raw) }

/-- The root as it is sent. -/
def finalized (q : QueryRoot C) : QueryRoot C :=
  match q.bool with
  | none => q
  | some b => if b.prune.isEmpty then matchAll else { q with bool := some b.prune }

/-- Apply a function to every clause. -/
def map (f : C → D) (q : QueryRoot C) : QueryRoot D := ⟨q.bool.map (·.map f), q.named⟩

/-! ## From and to JSON -/

/-- The members of a written root: the named queries, then the bool query. -/
def members (q : QueryRoot Value) : Object :=
  match q.bool with
  | some b => q.named.insert boolKey b.render
  | none => q.named

/-- A root as JSON. -/
def render (q : QueryRoot Value) : Value := .obj q.members

/-- Read a raw query. -/
def adopt (raw : Value → C) : Value → Checked (QueryRoot C)
  | .obj members =>
    match Object.find? members boolKey with
    | none => .ok ⟨none, members⟩
    | some body =>
      match BoolQuery.adopt raw body with
      | .ok b => .ok ⟨some b, Object.erase members boolKey⟩
      | .error r => .error r
  | _ => .error (Fault.queryNotObject.reject "query" "set_query")

/-- An object is adopted as it is without a bool query in it, and with one that can be adopted. -/
theorem adopt_eq_ok_iff {raw : Value → C} {v : Value} {q : QueryRoot C} :
    adopt raw v = .ok q ↔
      ∃ members, v = .obj members ∧
        ((Object.find? members boolKey = none ∧ q = ⟨none, members⟩) ∨
          ∃ body b, Object.find? members boolKey = some body ∧ BoolQuery.adopt raw body = .ok b ∧
            q = ⟨some b, Object.erase members boolKey⟩) := by
  constructor
  · intro h
    cases v with
    | obj members =>
      refine ⟨members, rfl, ?_⟩
      rw [adopt] at h
      cases hf : Object.find? members boolKey with
      | none =>
        rw [hf] at h
        exact .inl ⟨rfl, (Except.ok.inj h).symm⟩
      | some body =>
        rw [hf] at h
        cases ha : BoolQuery.adopt raw body with
        | error r =>
          simp only [ha] at h
          cases h
        | ok b =>
          simp only [ha] at h
          exact .inr ⟨body, b, rfl, ha, (Except.ok.inj h).symm⟩
    | _ => cases h
  · rintro ⟨members, rfl, ⟨hf, rfl⟩ | ⟨body, b, hf, ha, rfl⟩⟩
    · rw [adopt, hf]
    · rw [adopt, hf]
      simp only [ha]

end QueryRoot

end SearchRequest

import SearchRequest.Json.Value
import SearchRequest.Query.Section

/-!
# Bool queries

A bool query holds clauses in four sections, a bound on how many of the optional ones must hold, and
whatever other parameters a raw query brought along. What a clause is does not matter here: the type
`C` is a parameter, and `raw : Value → C` says how a given JSON value becomes a clause.

A section is absent, or installed with a list of clauses, possibly empty. Only the finalizer tells
an empty section from an absent one.

* `BoolQuery.install` — make a section present. A value that a raw query left under the section's
  key, neither a list nor an object, waits in `extra`; installing makes it the first clause.
* `BoolQuery.append` — add clauses to the end of a section.
* `BoolQuery.prune`, `BoolQuery.isEmpty` — what the finalizer asks.
* `BoolQuery.adopt`, `BoolQuery.render` — from and to JSON.
-/

namespace SearchRequest

/-- Clauses in four sections, with the parameters beside them. -/
structure BoolQuery (C : Type) where
  must : Option (List C) := none
  filter : Option (List C) := none
  should : Option (List C) := none
  mustNot : Option (List C) := none
  /-- a count when set by a builder, any value when adopted -/
  minimumShouldMatch : Option Value := none
  /-- other parameters, and values under a section's key that are no clauses yet -/
  extra : Object := []
deriving Inhabited, Repr

namespace BoolQuery

/-- The key of the bound on optional clauses. -/
def minimumKey : String := "minimum_should_match"

variable {C D : Type}

/-! ## Sections -/

/-- A section's clauses, if it is installed. -/
def get (b : BoolQuery C) : Section → Option (List C)
  | .must => b.must
  | .filter => b.filter
  | .should => b.should
  | .mustNot => b.mustNot

/-- Replace a section. -/
def set (b : BoolQuery C) (s : Section) (clauses : Option (List C)) : BoolQuery C :=
  match s with
  | .must => { b with must := clauses }
  | .filter => { b with filter := clauses }
  | .should => { b with should := clauses }
  | .mustNot => { b with mustNot := clauses }

/-- A section's clauses; an absent section has none. -/
def clauses (b : BoolQuery C) (s : Section) : List C := (b.get s).getD []

@[simp] theorem get_set_self (b : BoolQuery C) (s : Section) (cs : Option (List C)) :
    (b.set s cs).get s = cs := by
  cases s <;> rfl

theorem get_set_of_ne (b : BoolQuery C) {s t : Section} (cs : Option (List C)) (h : t ≠ s) :
    (b.set s cs).get t = b.get t := by
  cases s <;> cases t <;> first | rfl | exact absurd rfl h

@[simp] theorem extra_set (b : BoolQuery C) (s : Section) (cs : Option (List C)) :
    (b.set s cs).extra = b.extra := by
  cases s <;> rfl

@[simp] theorem minimumShouldMatch_set (b : BoolQuery C) (s : Section) (cs : Option (List C)) :
    (b.set s cs).minimumShouldMatch = b.minimumShouldMatch := by
  cases s <;> rfl

/-- All four sections installed and empty. -/
def wrapper : BoolQuery C :=
  { must := some [], filter := some [], should := some [], mustNot := some [] }

/-- Make a section present. A value waiting under its key becomes its one clause. -/
def install (raw : Value → C) (b : BoolQuery C) (s : Section) : BoolQuery C :=
  match b.get s with
  | some _ => b
  | none =>
    match b.extra.find? s.text with
    | some v => { b.set s (some [raw v]) with extra := b.extra.erase s.text }
    | none => b.set s (some [])

/-- Make all four sections present. -/
def installAll (raw : Value → C) (b : BoolQuery C) : BoolQuery C :=
  Section.all.foldl (install raw) b

/-- Add clauses to the end of a section, which is installed first. -/
def append (raw : Value → C) (b : BoolQuery C) (s : Section) (cs : List C) : BoolQuery C :=
  let b := b.install raw s
  b.set s (some (b.clauses s ++ cs))

/-- A section's clauses, and the query without that section. -/
def take (b : BoolQuery C) (s : Section) : List C × BoolQuery C := (b.clauses s, b.set s none)

/-- How many clauses there are in the four sections. -/
def clauseCount (b : BoolQuery C) : Nat :=
  (b.clauses .must).length + (b.clauses .filter).length + (b.clauses .should).length +
    (b.clauses .mustNot).length

/-! ## What the finalizer asks -/

/-- An installed section without clauses becomes absent. -/
def pruned : Option (List C) → Option (List C)
  | some [] => none
  | cs => cs

/-- The query without its empty sections. -/
def prune (b : BoolQuery C) : BoolQuery C :=
  { b with
    must := pruned b.must
    filter := pruned b.filter
    should := pruned b.should
    mustNot := pruned b.mustNot }

/-- The query would be written without any key. -/
def isEmpty (b : BoolQuery C) : Bool :=
  Section.all.all (fun s => (b.get s).isNone) && b.minimumShouldMatch.isNone && b.extra.isEmpty

@[simp] theorem get_prune (b : BoolQuery C) (s : Section) :
    b.prune.get s = pruned (b.get s) := by
  cases s <;> rfl

/-! ## Clauses of another kind -/

/-- Apply a function to every clause. -/
def map (f : C → D) (b : BoolQuery C) : BoolQuery D :=
  { must := b.must.map (·.map f)
    filter := b.filter.map (·.map f)
    should := b.should.map (·.map f)
    mustNot := b.mustNot.map (·.map f)
    minimumShouldMatch := b.minimumShouldMatch
    extra := b.extra }

@[simp] theorem get_map (f : C → D) (b : BoolQuery C) (s : Section) :
    (b.map f).get s = (b.get s).map (·.map f) := by
  cases s <;> rfl

/-! ## From and to JSON -/

/-- Write an installed section under its key. -/
def renderSection (b : BoolQuery Value) (members : Object) (s : Section) : Object :=
  match b.get s with
  | some cs => members.insert s.text (.arr cs)
  | none => members

/-- The members of a written bool query: the other parameters, the sections, the bound. -/
def members (b : BoolQuery Value) : Object :=
  let sections := Section.all.foldl b.renderSection b.extra
  match b.minimumShouldMatch with
  | some v => sections.insert minimumKey v
  | none => sections

/-- A bool query as JSON. -/
def render (b : BoolQuery Value) : Value := .obj b.members

/-- Take one member of a raw bool query. -/
def adoptMember (raw : Value → C) (b : BoolQuery C) (key : String) (value : Value) :
    BoolQuery C :=
  match Section.ofText? key, value with
  | some s, .arr items => b.set s (some (items.map raw))
  | some s, .obj members => b.set s (some [raw (.obj members)])
  | some _, value => { b with extra := b.extra.insert key value }
  | none, value =>
    if key = minimumKey then { b with minimumShouldMatch := some value }
    else { b with extra := b.extra.insert key value }

/-- Read a raw bool query. A list under a section's key is taken clause by clause and an object as
one clause; any other value there is kept as it is until the section is installed. -/
def adopt (raw : Value → C) : Value → Checked (BoolQuery C)
  | .obj members => .ok (members.foldl (fun b m => b.adoptMember raw m.1 m.2) {})
  | _ => .error (Fault.boolNotObject.reject "query" "set_query")

/-- Objects are adopted, member by member, and nothing else is. -/
theorem adopt_eq_ok_iff {raw : Value → C} {v : Value} {b : BoolQuery C} :
    adopt raw v = .ok b ↔
      ∃ members, v = .obj members ∧
        b = members.foldl (fun b m => b.adoptMember raw m.1 m.2) {} := by
  constructor
  · intro h
    cases v with
    | obj members => exact ⟨members, rfl, (Except.ok.inj h).symm⟩
    | _ => cases h
  · rintro ⟨members, rfl, rfl⟩
    rfl

end BoolQuery

end SearchRequest

import SearchRequest.Rejection

/-!
# Sections of a bool query

A bool query sorts its clauses into four sections. `Section.all` fixes the order in which they are
installed and written.
-/

namespace SearchRequest

/-- A section of a bool query. -/
inductive Section where
  /-- all clauses hold, and they score -/
  | must
  /-- all clauses hold, without a score -/
  | filter
  /-- some clauses hold, and they score -/
  | should
  /-- no clause holds -/
  | mustNot
deriving DecidableEq, Repr

namespace Section

/-- The sections in their order. -/
def all : List Section := [must, filter, should, mustNot]

/-- The key of a section. -/
def text : Section → String
  | must => "must"
  | filter => "filter"
  | should => "should"
  | mustNot => "must_not"

/-- The section with the given key. -/
def ofText? (key : String) : Option Section := all.find? fun s => s.text == key

/-- The section that an argument names. -/
def parse (given context : String) : Checked Section :=
  match ofText? given with
  | some s => .ok s
  | none => .error (Fault.reject (.sectionUnknown given) "section" context)

@[simp] theorem ofText?_text (s : Section) : ofText? s.text = some s := by
  cases s <;> decide

theorem text_of_ofText? {key : String} {s : Section} (h : ofText? key = some s) :
    s.text = key := by
  have := List.find?_some h
  simpa using this

theorem text_injective {s t : Section} (h : s.text = t.text) : s = t := by
  have := congrArg ofText? h
  simpa using this

end Section

end SearchRequest

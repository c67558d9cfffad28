import SearchRequest.Config
import SearchRequest.Document.Edit

/-!
# Actions on a builder

An action works on a builder in place and comes to a result or to a rejection. Either way it leaves
a builder behind: what was written before a rejection stays written, nobody puts the former document
back. That a rejected call changes nothing is therefore a matter of the order in which the call
checks and writes.

* `Action.write` — every change of a live document goes through here.
* `Action.takeQuery` — takes the query out of the document, which has none until another is put in.
* `Action.subBuilder` — runs a callback on a builder of its own.
-/

namespace SearchRequest

/-- A configuration and a live document. -/
structure Builder where
  config : Config := {}
  document : Document := .fresh
deriving Inhabited

/-- A new builder. -/
def Builder.start (config : Config) : Builder := { config }

/-- What is done to a builder, up to a result or a rejection. -/
abbrev Action := EStateM Rejection Builder

/-- A check in an action goes before what follows it, and leaves the builder alone. -/
instance : MonadLift Checked Action where
  monadLift
    | .ok a => pure a
    | .error r => throw r

namespace Action

/-- The builder that an action leaves, and the rejection if it came to one. -/
def outcome : EStateM.Result Rejection Builder Unit → Builder × Option Rejection
  | .ok _ b => (b, none)
  | .error r b => (b, some r)

/-- Change the live document. -/
def write (f : Document → Document) : Action Unit :=
  modify fun b => { b with document := f b.document }

/-! ## The query -/

/-- Clauses for the end of a section of the bool query, which is installed first. -/
def extend (s : Section) (clauses : List Clause) : Action Unit :=
  write (·.editBool (·.append .raw s clauses))

/-- One clause for the end of a section. -/
def push (s : Section) (clause : Clause) : Action Unit := extend s [clause]

/-- Take the query out of the document, finalized, for a wrapper. -/
def takeQuery : Action Value := do
  let query := (← get).document.embeddable
  write ({ · with query := none })
  return query.toValue

/-- Put a query into the document, in the place of the one that is there. -/
def putQuery (query : QueryRoot Clause) : Action Unit := write ({ · with query := some query })

/-! ## Callbacks -/

/-- Run a callback on a builder of its own, under the same configuration. -/
def subBuilder (callback : Action Unit) : Action Builder := do
  match callback.run (.start (← get).config) with
  | .ok _ sub => return sub
  | .error r _ => throw r

/-- The clauses of a callback that a merge takes over. -/
def subClauses (callback : Action Unit) : Action (List Clause) := do
  return (← subBuilder callback).document.mergeable

/-- The query of a callback, finalized. -/
def subQuery (callback : Action Unit) : Action (QueryRoot Clause) := do
  return (← subBuilder callback).document.embeddable

/-! ## The other parts of the document -/

/-- One more key to sort by, behind the others. -/
def pushSort (spec : SortSpec) : Action Unit :=
  write fun d => { d with sort := some (d.sort.getD [] ++ [spec]) }

/-- An aggregation under a name, in the place of an earlier one of that name. -/
def insertAggregation (name : String) (spec : Value) : Action Unit := write (·.attach name spec)

end Action

end SearchRequest

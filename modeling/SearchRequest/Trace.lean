import SearchRequest.Builder

/-!
# What a builder reports as it works

Merges and embeddings, finished documents and failed reports are announced as events, for whoever
listens. `Step.events` gives the events of a step without changing what the step does: first those
of its callback, as far as the callback got, then its own if the step succeeds.
-/

namespace SearchRequest

/-- How much an event matters. -/
inductive EventLevel where
  | trace
  | debug
  | warn
deriving DecidableEq, Repr

/-- The name of a level. -/
def EventLevel.text : EventLevel → String
  | trace => "TRACE"
  | debug => "DEBUG"
  | warn => "WARN"

/-- An announcement, with data in order. -/
structure Event where
  level : EventLevel
  message : String
  fields : Object
deriving Repr

namespace Event

/-- Clauses of a callback were taken over into a section. -/
def merged (s : Section) (d : Document) : Event :=
  ⟨.trace, s!"merging sub-builder clauses into {s.text}", [("count", .nat d.mergeable.length)]⟩

/-- The query of a callback was embedded. -/
def embedded (link : Embedding) (label : String) : Event :=
  let key := match link with
    | .nested => "path"
    | .hasChild => "child_type"
    | .hasParent => "parent_type"
  ⟨.trace, s!"embedding {link.name} query", [(key, .str label)]⟩

/-- A document was finished. -/
def built (d : Document) : Event :=
  ⟨.debug, "built query document",
    [("clauses", .nat d.clauseCount), ("match_all", .bool ((d.query.map (·.isMatchAll)).getD false)),
     ("aggregations", .nat d.aggregationCount)]⟩

/-- Messages in brackets, each in quotes. The messages of a report hold no quotes of their own. -/
def quotedList (messages : List String) : String :=
  let inner := ", ".intercalate (messages.map fun m => "\"" ++ m ++ "\"")
  "[" ++ inner ++ "]"

/-- A report found problems. -/
def failed (r : Report) : Event :=
  ⟨.warn, "query document failed validation", [("errors", .str (quotedList r.errors))]⟩

end Event

namespace Step

mutual

/-- The events of a step. -/
def events (config : Config) : Step → List Event
  | should steps =>
    runEvents config steps .fresh ++
      (match runAll config steps .fresh with
        | .ok d => [.merged .should d]
        | .error _ => [])
  | mustNot steps =>
    runEvents config steps .fresh ++
      (match runAll config steps .fresh with
        | .ok d => [.merged .mustNot d]
        | .error _ => [])
  | embed link label steps =>
    match link.check label with
    | .error _ => []
    | .ok _ =>
      runEvents config steps .fresh ++
        (match runAll config steps .fresh with
          | .ok _ => [.embedded link label]
          | .error _ => [])
  | _ => []
termination_by structural s => s

/-- The events of steps in a row, up to the first rejection. -/
def runEvents (config : Config) : List Step → Document → List Event
  | [], _ => []
  | s :: rest, d =>
    events config s ++
      (match s.apply config d with
        | .ok d => runEvents config rest d
        | .error _ => [])
termination_by structural steps => steps

end

end Step

namespace Builder

/-- The events of a call. -/
def callEvents (b : Builder) (call : Call) : List Event :=
  match call.steps with
  | .ok steps => Step.runEvents b.config steps b.document
  | .error _ => []

/-- The events of finishing the document. -/
def buildEvents (b : Builder) : List Event := [.built b.build]

/-- The events of a report. -/
def validateEvents (b : Builder) : List Event :=
  b.buildEvents ++ if b.validate.valid then [] else [.failed b.validate]

end Builder

end SearchRequest

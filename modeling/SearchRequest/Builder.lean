import SearchRequest.Json.Printer
import SearchRequest.Preset.Articles
import SearchRequest.Preset.Logs
import SearchRequest.Preset.Products
import SearchRequest.Preset.Reports
import SearchRequest.Step.Action

/-!
# Builders

The calls of a builder work on its live document or are rejected; its readings leave it alone.

* `Call` — all calls: the steps, and the calls of the presets, which stand for steps.
* `Builder.perform` — a call, as a caller sees it: the builder that its action left, and the
  rejection if there was one.
* `Builder.build` and what follows — the document as it is sent, as JSON, as text, and as the body
  of a search or of a count.
-/

namespace SearchRequest

/-- A call of a builder or of one of its presets. -/
inductive Call where
  | step (s : Step)
  | product (call : ProductCall)
  | log (call : LogCall)
  | report (call : ReportCall)
  | article (call : ArticleCall)

/-- The steps that a call stands for, or what is wrong with its arguments. -/
def Call.steps : Call → Checked (List Step)
  | step s => .ok [s]
  | product call => call.steps
  | log call => call.steps
  | report call => call.steps
  | article call => call.steps

/-- What a call does: its own checks, and the steps that it stands for in a row. -/
def Call.action (call : Call) : Action Unit := do
  let steps ← call.steps
  Step.actions steps

namespace Builder

/-! ## Calls -/

/-- Steps in a row, up to the first that is rejected. What the others did stays. -/
def performSteps (b : Builder) (steps : List Step) : Builder × Option Rejection :=
  Action.outcome (Step.actions steps |>.run b)

/-- A call: the builder afterwards, and the rejection if there was one. -/
def perform (b : Builder) (call : Call) : Builder × Option Rejection :=
  Action.outcome (call.action.run b)

/-! ## Readings -/

/-- The document as it is sent. -/
def build (b : Builder) : Document := b.document.finalized

/-- The document as it is sent, as JSON. -/
def toValue (b : Builder) : Value := b.build.toValue

/-- The document as it is sent, as text. -/
def toJson (pretty : Bool) (b : Builder) : String :=
  b.toValue.text (if pretty then .indented else .compact)

/-- What is wrong with the document as it is sent. -/
def validate (b : Builder) : Report := b.document.report b.config.maxResultWindow

/-- The cost estimate of the live document. -/
def complexity (b : Builder) : Nat := b.document.complexity

/-- The live bool query, empty sections included. -/
def rawSections (b : Builder) : BoolQuery Clause := b.document.bool?.getD {}

end Builder

/-! ## Request bodies -/

/-- What can be sent as the body of a search. -/
class SearchBody (α : Type) where
  /-- the body of a search -/
  searchBody : α → Value

export SearchBody (searchBody)

/-- A builder sends its document finalized. -/
instance : SearchBody Builder := ⟨Builder.toValue⟩

/-- A document is sent as it is. -/
instance : SearchBody Document := ⟨Document.toValue⟩

/-- A JSON value is sent as it is. -/
instance : SearchBody Value := ⟨id⟩

/-- The key of the query in a body. -/
def queryKey : String := "query"

/-- Of a body, the query alone. -/
def queryOnly (body : Value) : Value :=
  .record [(queryKey, body.object?.bind (·.find? queryKey))]

/-- The body of a count: of the body of a search, the query alone. -/
def countBody {α : Type} [SearchBody α] (a : α) : Value := queryOnly (searchBody a)

end SearchRequest

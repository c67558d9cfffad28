import SearchRequest.Proofs.Lookup
import SearchRequest.Proofs.Sound

/-!
# Reports

A report looks at the document that would be sent, and lists what is wrong with it under the window
of the configuration. It has three messages: for a missing query, for a page that is larger than the
window, and for a page that ends beyond it.

* `Document.report_valid_iff` — when nothing is wrong. This holds of any document.
* `Document.Sound.report_eq` — in a document that follows the rules the query is there and the page
  is no larger than the window, so that the last message alone is left. It tells the end of the page
  as it is: offset and size are integers of sixty-four bits with a sign, and their sum stays below
  the number at which ends of pages are held.
* `Builder.validate_run` — the report of a builder after any run.
-/

namespace SearchRequest

namespace Document

variable {config : Config} {d : Document}

/-- **Nothing is wrong** when the query is there and the page neither is larger than the window nor
ends beyond it. -/
theorem report_valid_iff {window : Nat} :
    (d.report window).valid = true ↔
      d.query.isSome = true ∧ (∀ size, d.size = some size → size ≤ window) ∧
        ∀ offset size, d.offset = some offset → d.size = some size →
          pageEnd offset size ≤ window := by
  rcases d with ⟨_ | offset, _ | size, _ | q⟩ <;>
    simp [report, problems, finalized, List.isEmpty_iff]

namespace Sound

variable {offset size : Nat}

/-- Offset and size are small enough for the end of the page to be their sum. -/
theorem pageEnd_eq (h : d.Sound config) (ho : d.offset = some offset) (hs : d.size = some size) :
    offset + size < maxCount ∧ pageEnd offset size = offset + size := by
  have hoffset : offset ≤ maxWord := h.offset ho
  have hsize : size ≤ maxWord := (h.size hs).1
  have hlt : offset + size < maxCount := by
    simp only [maxWord, maxCount] at *
    omega
  exact ⟨hlt, Nat.min_eq_left hlt.le⟩

/-- Of a document that follows the rules, only a page that ends beyond the window is reported. -/
theorem report_valid_eq_false_iff (h : d.Sound config) :
    (d.report config.maxResultWindow).valid = false ↔
      ∃ offset size, d.offset = some offset ∧ d.size = some size ∧
        config.maxResultWindow < offset + size := by
  rw [← Bool.not_eq_true, report_valid_iff]
  constructor
  · intro hwrong
    by_contra hnone
    refine hwrong ⟨h.query, fun size hs => (h.size hs).2, fun offset size ho hs => ?_⟩
    rw [(h.pageEnd_eq ho hs).2]
    exact Nat.le_of_not_lt fun hlt => hnone ⟨offset, size, ho, hs, hlt⟩
  · rintro ⟨offset, size, ho, hs, hlt⟩ ⟨-, -, hends⟩
    have hend := hends offset size ho hs
    rw [(h.pageEnd_eq ho hs).2] at hend
    omega

/-- What is reported of it. -/
theorem report_eq (h : d.Sound config) (ho : d.offset = some offset) (hs : d.size = some size)
    (hlt : config.maxResultWindow < offset + size) :
    let window := config.maxResultWindow
    d.report window =
      ⟨false, [s!"from + size ({offset + size}) exceeds the result window of {window}"]⟩ := by
  intro window
  have hquery : d.finalized.query.isNone = false := by
    obtain ⟨q, hq⟩ := Option.isSome_iff_exists.1 h.query
    rw [query_finalized hq]
    rfl
  have hoffset : d.finalized.offset = some offset := ho
  have hsize : d.finalized.size = some size := hs
  have hfits : ¬ window < size := Nat.not_lt.2 (h.size hs).2
  have hends : window < offset + size := hlt
  simp only [report, problems, hquery, hoffset, hsize, (h.pageEnd_eq ho hs).2, if_neg hfits,
    if_pos hends]
  rfl

end Sound

end Document

/-! ## Runs -/

namespace Builder

/-- Calls whose integers fit into sixty-four bits lead to documents that follow the rules. -/
theorem sound_document {config : Config} {calls : List Call}
    (hw : ∀ call ∈ calls, call.WordSized) :
    ((start config).run calls).document.Sound config := by
  refine (run_preserves (b := start config) ?_ .fresh).1
  intro call hc steps hs s hm d d' hd happly
  obtain ⟨e, he, happly⟩ := Step.apply_eq_ok_iff.1 happly
  exact (Step.sound_of_edit (Call.wordSized_steps (hw call hc) steps hs s hm) he).apply hd happly

/-- **The report of a builder** after any calls, those included that are rejected. Something is
wrong exactly when offset and size are set and their sum exceeds the window. There is one message
then, and it tells the sum. In the document that is looked at the query is never missing, the page
is never larger than the window, and the sum stays below the number at which it would be held. -/
theorem validate_run {config : Config} {calls : List Call}
    (hw : ∀ call ∈ calls, call.WordSized) :
    let b := (start config).run calls
    let window := config.maxResultWindow
    (b.validate.valid = false ↔
        ∃ offset size, b.document.offset = some offset ∧ b.document.size = some size ∧
          window < offset + size) ∧
      (∀ offset size, b.document.offset = some offset → b.document.size = some size →
        window < offset + size →
          b.validate =
            ⟨false, [s!"from + size ({offset + size}) exceeds the result window of {window}"]⟩) ∧
      b.build.query.isSome = true ∧ (∀ size, b.build.size = some size → size ≤ window) ∧
      ∀ offset size, b.build.offset = some offset → b.build.size = some size →
        offset + size < Document.maxCount ∧ Document.pageEnd offset size = offset + size := by
  intro b window
  have hsound : b.document.Sound config := sound_document hw
  have hvalidate : b.validate = b.document.report window := by
    rw [validate, config_run]
    rfl
  obtain ⟨q, hq⟩ := Option.isSome_iff_exists.1 hsound.query
  rw [hvalidate]
  refine ⟨hsound.report_valid_eq_false_iff, fun offset size => hsound.report_eq, ?_, ?_, ?_⟩
  · rw [build, Document.query_finalized hq]
    rfl
  · exact fun size hs => (hsound.size hs).2
  · exact fun offset size => hsound.pageEnd_eq

/-- Offset and size are as large as they can be, and the window is smaller than their sum by one. -/
theorem validate_run_of_largest :
    let config : Config := { maxResultWindow := 18446744073709551613 }
    let calls : List Call :=
      [.step (.offset 9223372036854775807), .step (.size 9223372036854775807), .step (.size (-1))]
    let b := (start config).run calls
    let message :=
      "from + size (18446744073709551614) exceeds the result window of 18446744073709551613"
    (∀ call ∈ calls, call.WordSized) ∧ b.validate = ⟨false, [message]⟩ := by
  intro config calls b message
  have hw : ∀ call ∈ calls, call.WordSized := by
    intro call hc
    simp only [calls, List.mem_cons, List.not_mem_nil, or_false] at hc
    rcases hc with rfl | rfl | rfl <;> constructor <;> decide
  have hlt : config.maxResultWindow < 9223372036854775807 + 9223372036854775807 := by decide
  obtain ⟨-, hreport, -⟩ := @validate_run config calls hw
  refine ⟨hw, (hreport _ _ rfl rfl hlt).trans ?_⟩
  decide

end Builder

end SearchRequest

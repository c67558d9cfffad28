/-!
# Configuration of a builder

A builder and every sub-builder that it spawns share one configuration: the widest window of
results, and the suffix that marks the unanalysed twin of a text field.
-/

namespace SearchRequest

/-- The settings of a builder. -/
structure Config where
  /-- the greatest page size, and the greatest sum of offset and page size -/
  maxResultWindow : Nat := 10000
  /-- what `term` appends to a field that does not end with it -/
  keywordSuffix : String := ".keyword"
deriving DecidableEq, Inhabited, Repr

namespace Config

/-- The text ends with the suffix. -/
def endsWith (text suffix : String) : Bool := suffix.toList.isSuffixOf text.toList

/-- The unanalysed twin of a field: the field itself when it already is one. -/
def keywordField (config : Config) (field : String) : String :=
  if endsWith field config.keywordSuffix then field else field ++ config.keywordSuffix

theorem endsWith_iff {text suffix : String} :
    endsWith text suffix = true ↔ ∃ front, text = front ++ suffix := by
  rw [endsWith, List.isSuffixOf_iff_suffix]
  constructor
  · rintro ⟨front, h⟩
    exact ⟨String.ofList front, by rw [← String.toList_inj]; simp [h]⟩
  · rintro ⟨front, h⟩
    exact ⟨front.toList, by simp [h]⟩

/-- A twin ends with the suffix, whatever the field was. -/
theorem endsWith_keywordField (config : Config) (field : String) :
    endsWith (config.keywordField field) config.keywordSuffix = true := by
  rw [keywordField]
  split
  · assumption
  · exact endsWith_iff.2 ⟨field, rfl⟩

end Config

end SearchRequest

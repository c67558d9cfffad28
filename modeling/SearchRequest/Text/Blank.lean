import SearchRequest.Text.CodeRange

/-!
# Blank text

A character is blank when it has the Unicode property White_Space. A text is blank when nothing is
left of it once the blank characters at both ends are removed, which is to say when it holds none
but blank characters (`isBlank_iff`).

* `trimChars`, `trimmed` — the removal, on a list of characters and on a string.
* `isBlank` — the test on a string.
-/

namespace SearchRequest

/-- Code points of the blank characters. -/
def blankRanges : List (Nat × Nat) :=
  [(0x9, 0xD), (0x20, 0x20), (0x85, 0x85), (0xA0, 0xA0), (0x1680, 0x1680), (0x2000, 0x200A),
   (0x2028, 0x2029), (0x202F, 0x202F), (0x205F, 0x205F), (0x3000, 0x3000)]

/-- The table is in order, and holds twenty-five characters. -/
theorem blankRanges_wellFormed :
    CodeRange.ascending blankRanges = true ∧ CodeRange.count blankRanges = 25 := by
  decide

/-- The character is blank. -/
def isBlankChar (c : Char) : Bool := CodeRange.covers blankRanges c

/-- The text without the blank characters at its two ends. -/
def trimChars (cs : List Char) : List Char :=
  ((cs.dropWhile isBlankChar).reverse.dropWhile isBlankChar).reverse

/-- The text without the blank characters at its two ends. -/
def trimmed (s : String) : String := String.ofList (trimChars s.toList)

/-- Nothing is left of the text once it is trimmed. -/
def isBlank (s : String) : Bool := (trimChars s.toList).isEmpty

/-- Dropping the blank characters in front leaves nothing exactly when there are no others. -/
theorem dropWhile_isBlankChar_eq_nil_iff {cs : List Char} :
    cs.dropWhile isBlankChar = [] ↔ ∀ c ∈ cs, isBlankChar c = true := by
  induction cs with
  | nil => simp
  | cons a rest ih =>
    cases ha : isBlankChar a
    · simp [ha]
    · simp [ha, ih]

/-- Trimming leaves nothing exactly when all characters are blank. -/
theorem trimChars_eq_nil_iff {cs : List Char} :
    trimChars cs = [] ↔ ∀ c ∈ cs, isBlankChar c = true := by
  rw [trimChars, List.reverse_eq_nil_iff, ← @dropWhile_isBlankChar_eq_nil_iff cs]
  constructor
  · intro h
    have hall := dropWhile_isBlankChar_eq_nil_iff.1 h
    cases hcs : cs.dropWhile isBlankChar with
    | nil => rfl
    | cons a rest =>
      have hn := List.head_dropWhile_not isBlankChar (l := cs) (by simp [hcs])
      simp [hcs, hall a (by simp [hcs])] at hn
  · intro h
    simp [h]

/-- A text is blank exactly when it holds none but blank characters. -/
theorem isBlank_iff {s : String} :
    isBlank s = true ↔ ∀ c ∈ s.toList, isBlankChar c = true := by
  rw [isBlank, List.isEmpty_iff, trimChars_eq_nil_iff]

end SearchRequest

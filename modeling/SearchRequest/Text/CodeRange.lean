/-!
# Sets of characters as ranges of code points

A character property is kept as a list of closed ranges of code points, ascending and apart.
-/

namespace SearchRequest.CodeRange

/-- The character's code point lies in one of the ranges. -/
def covers (ranges : List (Nat × Nat)) (c : Char) : Bool :=
  ranges.any fun r => r.1 ≤ c.toNat && c.toNat ≤ r.2

/-- Each range is in order, and the next one starts beyond it. -/
def ascending : List (Nat × Nat) → Bool
  | [] => true
  | [r] => r.1 ≤ r.2
  | r :: s :: rest => r.1 ≤ r.2 && r.2 < s.1 && ascending (s :: rest)

/-- How many code points the ranges hold together. -/
def count (ranges : List (Nat × Nat)) : Nat := ranges.foldl (fun n r => n + (r.2 + 1 - r.1)) 0

theorem covers_eq_true_iff {ranges : List (Nat × Nat)} {c : Char} :
    covers ranges c = true ↔ ∃ r ∈ ranges, r.1 ≤ c.toNat ∧ c.toNat ≤ r.2 := by
  simp [covers]

end SearchRequest.CodeRange

/-!
# Binary64 numbers by their bits

The floating numbers of a request are kept as their sixty-four bits. Everything a request decides
about such a number — is it a number at all, is it finite, does it lie between two bounds — is
decided here on the bits, in plain integer arithmetic:

* `Double.isNaN`, `Double.isFinite` — the three kinds of bit pattern: numbers, infinities and the
  patterns that are no number.
* `Double.rank` — an integer that orders the numbers as their values do. Both zeros have rank `0`.
* `Double.le`, `Double.lt`, `Double.same` — the comparisons of values. None of them holds of a
  pattern that is no number, not even `same x x`.
-/

namespace SearchRequest

/-- A binary64 number, held as its bits: a sign bit, eleven exponent bits, fifty-two fraction
bits. Two numbers are equal as data exactly when their bits agree. -/
structure Double where
  /-- the sixty-four bits -/
  bits : UInt64
deriving DecidableEq, Inhabited, Repr

namespace Double

/-! ## Parts of the pattern -/

/-- The weight of the sign bit, `2 ^ 63`. -/
def signWeight : Nat := 0x8000000000000000

/-- How many magnitudes share one exponent, `2 ^ 52`. -/
def binadeSize : Nat := 0x10000000000000

/-- The sign bit is set. -/
def isNegative (x : Double) : Bool := signWeight ≤ x.bits.toNat

/-- The pattern without its sign bit. -/
def magnitude (x : Double) : Nat := x.bits.toNat % signWeight

/-- The magnitude of the two infinities. Lesser magnitudes are numbers, greater ones are not. -/
def infiniteMagnitude : Nat := 0x7FF0000000000000

/-- The pattern stands for no number. -/
def isNaN (x : Double) : Bool := infiniteMagnitude < x.magnitude

/-- The pattern stands for a number, and not for an infinity. -/
def isFinite (x : Double) : Bool := x.magnitude < infiniteMagnitude

/-- The number with the given sign and magnitude; the magnitude is taken modulo `signWeight`. -/
def ofParts (negative : Bool) (magnitude : Nat) : Double :=
  ⟨UInt64.ofNat (magnitude % signWeight + if negative then signWeight else 0)⟩

/-- The pattern used for "no number". -/
def nan : Double := ofParts false 0x7FF8000000000000

/-- The infinity of the given sign. -/
def infinity (negative : Bool) : Double := ofParts negative infiniteMagnitude

/-- Positive zero. -/
def zero : Double := ⟨0⟩

/-! ## Order of the values -/

/-- The rank of a number among the numbers: the magnitude with the sign in front. -/
def rank (x : Double) : Int := if x.isNegative then -(x.magnitude : Int) else x.magnitude

theorem natAbs_rank (x : Double) : x.rank.natAbs = x.magnitude := by
  rw [rank]
  split <;> omega

/-- `x` is at most `y`. -/
def le (x y : Double) : Bool := !x.isNaN && !y.isNaN && x.rank ≤ y.rank

/-- `x` is less than `y`. -/
def lt (x y : Double) : Bool := !x.isNaN && !y.isNaN && x.rank < y.rank

/-- `x` and `y` have the same value: the two zeros do. -/
def same (x y : Double) : Bool := !x.isNaN && !y.isNaN && x.rank == y.rank

/-- `x` lies in the closed interval from `low` to `high`. -/
def within (x low high : Double) : Bool := low.le x && x.le high

/-- A number between two finite ones is finite. -/
theorem isFinite_of_within {x low high : Double} (hl : low.isFinite = true)
    (hh : high.isFinite = true) (h : x.within low high = true) : x.isFinite = true := by
  simp only [within, le, Bool.and_eq_true, decide_eq_true_eq] at h
  obtain ⟨⟨-, hlow⟩, -, hhigh⟩ := h
  simp only [isFinite, decide_eq_true_eq, ← natAbs_rank] at hl hh ⊢
  omega

end Double

end SearchRequest

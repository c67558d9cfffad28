import SearchRequest.Proofs.Reading

/-!
# Numbers in JSON values

An integer in a JSON value fits into sixty-four bits, signed or unsigned, and a floating number is
finite. `Value.numbersFit` says so of all the numbers in a value, and `Value.numbersFit_of_parse`
that every value from text is of this kind.

A floating number may also be written as an integer, and is then the number nearest to it. The
integers that fit are far from the end of the range, so that this number is finite:
`Double.isFinite_ofInt`.
-/

namespace SearchRequest

/-! ## Numbers that fit -/

namespace Value

mutual

/-- All integers in the value fit, and all floating numbers are finite. -/
def numbersFit : Value → Bool
  | .int n => Reader.fitsInteger n
  | .float x => x.isFinite
  | .arr items => numbersFitItems items
  | .obj members => numbersFitMembers members
  | _ => true
termination_by structural v => v

/-- The numbers in all items fit. -/
def numbersFitItems : List Value → Bool
  | [] => true
  | v :: rest => v.numbersFit && numbersFitItems rest
termination_by structural vs => vs

/-- The numbers in the values of all members fit. -/
def numbersFitMembers : List (String × Value) → Bool
  | [] => true
  | (_, v) :: rest => v.numbersFit && numbersFitMembers rest
termination_by structural ms => ms

end

theorem numbersFit_arr {items : List Value} :
    (arr items).numbersFit = true ↔ ∀ v ∈ items, v.numbersFit = true := by
  rw [numbersFit]
  induction items with
  | nil => simp [numbersFitItems]
  | cons v rest ih => simp [numbersFitItems, ih]

theorem numbersFit_obj {members : Object} :
    (obj members).numbersFit = true ↔ ∀ m ∈ members, m.2.numbersFit = true := by
  rw [numbersFit]
  induction members with
  | nil => simp [numbersFitMembers]
  | cons m rest ih => simp [numbersFitMembers, ih]

/-- **The numbers fit** in every value that a text spells. -/
theorem numbersFit_of_parse {text : String} {v : Value} (h : parse? text = some v) :
    v.numbersFit = true := by
  have hP : Reader.Keeps fun v => v.numbersFit = true :=
    { null := rfl
      bool := fun _ => rfl
      str := fun _ => rfl
      int := id
      float := id
      arr := numbersFit_arr.2
      obj := fun _ hms => numbersFit_obj.2 hms }
  exact hP.of_parse h

end Value

/-! ## Floating numbers written as integers -/

/-- Rounding a quotient adds at most one to it. -/
theorem divRoundEven_le (num den : Nat) : divRoundEven num den ≤ num / den + 1 := by
  simp only [divRoundEven]
  split_ifs <;> omega

namespace Double

/-- The magnitude of a number put together from its parts. -/
theorem magnitude_ofParts (negative : Bool) {m : Nat} (h : m < signWeight) :
    (ofParts negative m).magnitude = m := by
  have hw : signWeight = 9223372036854775808 := rfl
  rw [magnitude, ofParts, UInt64.toNat_ofNat']
  cases negative
  · simp only [hw, Bool.false_eq_true, if_false] at *
    omega
  · simp only [hw, if_true] at *
    omega

/-- The scale leaves fifty-four binary digits of an integer, or fewer. -/
theorem divRoundEven_scaled {m : Nat} {q : Int} (hq : (m.log2 : Int) - 53 ≤ q) :
    divRoundEven (m * Nat.pow 2 (-q).toNat) (1 * Nat.pow 2 q.toNat) ≤ Nat.pow 2 54 := by
  have hm : m < 2 ^ (m.log2 + 1) := Nat.lt_log2_self
  have hscaled : m * 2 ^ (-q).toNat < 2 ^ q.toNat * 2 ^ 54 :=
    calc m * 2 ^ (-q).toNat
        < 2 ^ (m.log2 + 1) * 2 ^ (-q).toNat := Nat.mul_lt_mul_of_pos_right hm (Nat.two_pow_pos _)
      _ = 2 ^ (m.log2 + 1 + (-q).toNat) := (Nat.pow_add ..).symm
      _ ≤ 2 ^ (q.toNat + 54) := Nat.pow_le_pow_right (by decide) (by omega)
      _ = 2 ^ q.toNat * 2 ^ 54 := Nat.pow_add ..
  rw [Nat.one_mul]
  exact Nat.le_trans (divRoundEven_le _ _) (Nat.div_lt_of_lt_mul hscaled)

theorem log2_lt_of_lt {m k : Nat} (hk : 0 < k) (h : m < Nat.pow 2 k) : m.log2 < k := by
  by_cases hm : m = 0
  · rw [hm, Nat.log2_zero]
    exact hk
  · exact (Nat.log2_lt hm).2 h

/-- The number nearest to an integer of sixty-four bits is scaled by `2 ^ 11` at most. -/
theorem isFinite_nearestRatio_one (negative : Bool) {m : Nat} (h : m < Nat.pow 2 64) :
    (nearestRatio negative m 1).isFinite = true := by
  have hlog : m.log2 < 64 := log2_lt_of_lt (by decide) h
  have hone : Nat.log2 1 = 0 := by decide
  simp only [nearestRatio, hone]
  generalize hq : max (-1074 : Int) _ = q
  have hlow : (m.log2 : Int) - 53 ≤ q := by
    rw [← hq]
    split_ifs <;> omega
  have hhigh : q ≤ 11 := by
    rw [← hq]
    split_ifs <;> omega
  have hrounded := divRoundEven_scaled hlow
  have hpattern : (q + 1074).toNat * binadeSize +
      divRoundEven (m * Nat.pow 2 (-q).toNat) (1 * Nat.pow 2 q.toNat) < infiniteMagnitude := by
    have htop : infiniteMagnitude = 2047 * 2 ^ 52 := by decide
    have hbinade : binadeSize = 2 ^ 52 := by decide
    have hbits : Nat.pow 2 54 = 2 ^ 54 := rfl
    rw [hbits] at hrounded
    rw [htop, hbinade]
    omega
  rw [Nat.min_eq_left (Nat.le_of_lt hpattern), isFinite,
    magnitude_ofParts negative (Nat.lt_trans hpattern (by decide)), decide_eq_true hpattern]

/-- **Integers that fit** are nearest to finite numbers. -/
theorem isFinite_ofInt {n : Int} (h : Reader.fitsInteger n = true) : (ofInt n).isFinite = true := by
  simp only [Reader.fitsInteger, Bool.and_eq_true, decide_eq_true_eq] at h
  have hsmall : n.natAbs < 2 ^ 64 := by omega
  have hlog : n.natAbs.log2 < 64 := log2_lt_of_lt (by decide) hsmall
  simp only [ofInt, ofDecimal]
  split_ifs with hzero htop hbottom
  · rw [isFinite, magnitude_ofParts _ (by decide)]
    decide
  -- an integer of this size stands neither beyond the range nor below it
  · rw [decimalTop] at htop
    omega
  · rw [decimalBottom] at hbottom
    omega
  · have hpow : Nat.pow 10 (Int.toNat 0) = 1 := rfl
    have hpow' : Nat.pow 10 (Int.toNat (-0)) = 1 := rfl
    rw [hpow, hpow', Nat.mul_one]
    exact isFinite_nearestRatio_one _ hsmall

end Double

end SearchRequest

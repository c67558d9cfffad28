import SearchRequest.Number.Double

/-!
# Decimals, and the binary64 number nearest to one

* `Decimal` — a natural number of units of a power of ten.
* `Double.nearestRatio` — the number nearest to a quotient of naturals, ties to the even pattern.
  The quotient is scaled so that its rounding has fifty-three binary digits, or fewer at the bottom
  of the range. The pattern is then one sum: `(q + 1074) * 2 ^ 52 + m` stands for `m * 2 ^ q`, and a
  rounding up to `2 ^ 53` carries into the exponent by itself.
* `Double.ofDecimal`, `Double.ofInt` — the number nearest to a decimal or to an integer.
-/

namespace SearchRequest

/-- The decimal `digits * 10 ^ exponent`. -/
structure Decimal where
  digits : Nat
  exponent : Int
deriving DecidableEq, Repr

/-- The quotient `num / den` rounded to a natural number, a half to the even neighbour. -/
def divRoundEven (num den : Nat) : Nat :=
  let quotient := num / den
  let twice := 2 * (num % den)
  if twice < den then quotient
  else if den < twice then quotient + 1
  else quotient + quotient % 2

namespace Double

/-- The number nearest to `num / den` for a positive `num`, with the given sign. Beyond the range
it is an infinity. -/
def nearestRatio (negative : Bool) (num den : Nat) : Double :=
  let estimate : Int := (num.log2 : Int) - den.log2 - 53
  let scaled (q : Int) : Nat × Nat := (num * Nat.pow 2 (-q).toNat, den * Nat.pow 2 q.toNat)
  let fits (q : Int) : Bool := (scaled q).1 < (scaled q).2 * (2 * binadeSize)
  let q := max (-1074) (if fits estimate then estimate else estimate + 1)
  let pattern := (q + 1074).toNat * binadeSize + divRoundEven (scaled q).1 (scaled q).2
  ofParts negative (min pattern infiniteMagnitude)

/-- Decimals whose leading digit stands at or beyond `10 ^ decimalTop` exceed every finite number,
and those below `10 ^ decimalBottom` are nearer to zero than to any other number. -/
def decimalTop : Int := 400

@[inherit_doc decimalTop]
def decimalBottom : Int := -400

/-- The number nearest to a decimal, with the given sign. -/
def ofDecimal (negative : Bool) (d : Decimal) : Double :=
  if d.digits = 0 then ofParts negative 0
  else
    let lead : Int := (d.digits.log2 : Int) * 3 / 10 + d.exponent
    if decimalTop < lead then infinity negative
    else if (d.digits.log2 : Int) / 3 + 1 + d.exponent < decimalBottom then ofParts negative 0
    else
      nearestRatio negative (d.digits * Nat.pow 10 d.exponent.toNat)
        (Nat.pow 10 (-d.exponent).toNat)

/-- The number nearest to an integer. -/
def ofInt (n : Int) : Double := ofDecimal (n < 0) ⟨n.natAbs, 0⟩

end Double

end SearchRequest

import SearchRequest.Number.Decimal

/-!
# The shortest decimal that reads back

A finite positive number stands for an interval of reals: those nearer to it than to its two
neighbours, ends included when its significand is even. `Double.shortest` is the decimal of fewest
digits inside that interval, and of those the one nearest to the number itself.

* `Span` — the interval and the number inside it, as three naturals over one common denominator.
* `Span.pick` — of the two points of a decimal grid around the number, the one to write, if either
  lies in the interval. If any point of the grid lies there, one of these two does.
* `Double.shortest` — the pick on the coarsest grid that has one. Trailing zeros cannot arise: such
  a decimal is a point of a coarser grid, which has been tried before.

An exact tie between the two points is settled by the caller, see `Tie`.
-/

namespace SearchRequest

/-- Which of two equally near decimals is written. -/
inductive Tie where
  /-- the one with the even last digit -/
  | even
  /-- the greater one -/
  | up
deriving DecidableEq, Repr

/-- The reals that round to a number: `low ≤ mid ≤ high`, each over the denominator `unit`. -/
structure Span where
  low : Nat
  mid : Nat
  high : Nat
  unit : Nat
  /-- the two ends belong to the interval -/
  closed : Bool
deriving Repr

namespace Span

/-- The same interval measured in units of `10 ^ grid`. -/
def rescale (s : Span) (grid : Int) : Span :=
  let finer := Nat.pow 10 (-grid).toNat
  { s with
    low := s.low * finer
    mid := s.mid * finer
    high := s.high * finer
    unit := s.unit * Nat.pow 10 grid.toNat }

/-- The natural number `n` lies in the interval. -/
def contains (s : Span) (n : Nat) : Bool :=
  let point := n * s.unit
  if s.closed then s.low ≤ point && point ≤ s.high else s.low < point && point < s.high

/-- The natural number next to `mid` that lies in the interval; of two the nearer one. -/
def pick (s : Span) (tie : Tie) : Option Nat :=
  let below := s.mid / s.unit
  match s.contains below, s.contains (below + 1) with
  | false, false => none
  | true, false => some below
  | false, true => some (below + 1)
  | true, true =>
    match compare (2 * s.mid) ((2 * below + 1) * s.unit), tie with
    | .lt, _ => some below
    | .gt, _ => some (below + 1)
    | .eq, .up => some (below + 1)
    | .eq, .even => some (below + below % 2)

end Span

namespace Double

/-- The significand of a finite number: the fraction bits, with the leading bit in front unless
the number is at the bottom of the range. -/
def significand (x : Double) : Nat :=
  if x.magnitude < binadeSize then x.magnitude else binadeSize + x.magnitude % binadeSize

/-- The power of two that the significand counts. -/
def scale (x : Double) : Int :=
  if x.magnitude < binadeSize then -1074 else (x.magnitude / binadeSize : Nat) - 1075

/-- The interval of a finite number, in quarters of the significand's unit. Just above a power of
two the neighbour below is half as far away as the one above. -/
def span (x : Double) : Span :=
  let m := x.significand
  let narrow := m == binadeSize && 2 * binadeSize ≤ x.magnitude
  let quarters := Nat.pow 2 (x.scale - 2).toNat
  { low := (4 * m - if narrow then 1 else 2) * quarters
    mid := 4 * m * quarters
    high := (4 * m + 2) * quarters
    unit := Nat.pow 2 (2 - x.scale).toNat
    closed := m % 2 == 0 }

/-- The exact decimal value of a finite number, whatever its length. -/
def exactDecimal (x : Double) : Decimal :=
  ⟨x.significand * Nat.pow 2 x.scale.toNat * Nat.pow 5 (-x.scale).toNat, min x.scale 0⟩

/-- A power of ten beyond the given finite positive number. -/
def gridTop (x : Double) : Int :=
  ((x.significand.log2 : Int) + x.scale) * 30103 / 100000 + 2

/-- The fewest digits that read back as the given finite positive number, sign aside. -/
def shortest (tie : Tie) (x : Double) : Decimal :=
  let grids := (List.range 24).map fun (i : Nat) => x.gridTop - i
  let hit? := grids.findSome? fun grid =>
    ((x.span.rescale grid).pick tie).map (Decimal.mk · grid)
  hit?.getD x.exactDecimal

end Double

end SearchRequest

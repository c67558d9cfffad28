import SearchRequest.Number.Shortest

/-!
# How numbers are written

Two styles are in use, both built on the shortest digits that read back:

* `NumberStyle.json` — the numbers of a JSON text. A leading digit from `10 ^ -5` to `10 ^ 15` is
  written positionally and with a point (`2.0`, `0.00001`); other numbers have an exponent
  (`1e+16`, `1e-6`).
* `NumberStyle.prose` — the numbers inside an error message: always positional, and without a point
  when the value is a whole number.

`Double.chars` writes a number in a style. The zeros keep their sign, and in prose the infinities
and the pattern that is no number have names.
-/

namespace SearchRequest

/-- The decisions of a way to write numbers. -/
structure NumberStyle where
  /-- the numbers whose leading digit stands at this power of ten are written positionally -/
  positional : Int → Bool
  /-- a whole number is followed by a point and a zero -/
  pointZero : Bool
  /-- which of two equally near decimals is written -/
  tie : Tie

namespace NumberStyle

/-- Numbers of a JSON text. -/
def json : NumberStyle where
  positional lead := -5 ≤ lead && lead ≤ 15
  pointZero := true
  tie := .even

/-- Numbers inside an error message. -/
def prose : NumberStyle where
  positional _ := true
  pointZero := false
  tie := .up

/-- A decimal written with its point in place. -/
def positionalChars (style : NumberStyle) (digits : List Char) (exponent : Int) : List Char :=
  let lead : Int := exponent + digits.length - 1
  if 0 ≤ exponent then
    digits ++ List.replicate exponent.toNat '0' ++ if style.pointZero then ['.', '0'] else []
  else if 0 ≤ lead then
    digits.take (lead.toNat + 1) ++ '.' :: digits.drop (lead.toNat + 1)
  else
    '0' :: '.' :: List.replicate (-lead - 1).toNat '0' ++ digits

/-- A decimal written with one digit before the point and the power of ten behind. -/
def scientificChars (digits : List Char) (exponent : Int) : List Char :=
  let lead : Int := exponent + digits.length - 1
  let fraction := match digits.drop 1 with
    | [] => []
    | rest => '.' :: rest
  let sign := if lead < 0 then '-' else '+'
  digits.take 1 ++ fraction ++ 'e' :: sign :: Nat.toDigits 10 lead.natAbs

/-- A positive decimal in the given style. -/
def decimalChars (style : NumberStyle) (d : Decimal) : List Char :=
  let digits := Nat.toDigits 10 d.digits
  if style.positional (d.exponent + digits.length - 1) then
    style.positionalChars digits d.exponent
  else scientificChars digits d.exponent

end NumberStyle

/-- A number in the given style. -/
def Double.chars (style : NumberStyle) (x : Double) : List Char :=
  if x.isNaN then "NaN".toList
  else
    let sign := if x.isNegative then ['-'] else []
    if !x.isFinite then sign ++ "inf".toList
    else if x.magnitude = 0 then sign ++ style.positionalChars ['0'] 0
    else sign ++ style.decimalChars (x.shortest style.tie)

/-- A number as an error message shows it. -/
def Double.prose (x : Double) : String := String.ofList (x.chars .prose)

end SearchRequest

import SearchRequest.Json.Value
import SearchRequest.Number.Decimal

/-!
# Reading JSON text

`Value.parse?` reads a text as one value, or refuses it. The grammar is that of JSON, without a
limit on nesting. What the value types add:

* A number without fraction and exponent is an integer when it fits 64 bits, signed or unsigned.
  Every other number is the nearest binary64 number; `-0` counts among these, so that its sign is
  kept. A number beyond the binary64 range is refused.
* The members of an object keep their order. A repeated key keeps its first place and takes its
  last value, as `Object.insert` has it.
* An escaped surrogate must come as half of a pair.

Readers take the characters that are left, and give back what they read with the characters behind
it. The bound on the depth of calls, `fuel`, never shows: `Value.parse?` gives two for each
character, and no character is passed with more than two calls.
-/

namespace SearchRequest.Reader

/-- The blanks that may stand between tokens. -/
def isSpace (c : Char) : Bool := c == ' ' || c == '\t' || c == '\n' || c == '\r'

/-- What is left behind the blanks. -/
def skipSpace (cs : List Char) : List Char := cs.dropWhile isSpace

/-! ## Strings -/

/-- The value of a hexadecimal digit. -/
def hexValue (c : Char) : Option Nat :=
  if '0' ≤ c && c ≤ '9' then some (c.toNat - '0'.toNat)
  else if 'a' ≤ c && c ≤ 'f' then some (c.toNat - 'a'.toNat + 10)
  else if 'A' ≤ c && c ≤ 'F' then some (c.toNat - 'A'.toNat + 10)
  else none

/-- The value of four hexadecimal digits. -/
def hexUnit (a b c d : Char) : Option Nat := do
  return (((← hexValue a) * 16 + (← hexValue b)) * 16 + (← hexValue c)) * 16 + (← hexValue d)

/-- The first half of a surrogate pair. -/
def isHighSurrogate (unit : Nat) : Bool := 0xD800 ≤ unit && unit < 0xDC00

/-- The second half of a surrogate pair. -/
def isLowSurrogate (unit : Nat) : Bool := 0xDC00 ≤ unit && unit < 0xE000

/-- The character that a letter behind a backslash stands for. -/
def unescape : Char → Option Char
  | '"' => some '"'
  | '\\' => some '\\'
  | '/' => some '/'
  | 'b' => some '\x08'
  | 'f' => some '\x0c'
  | 'n' => some '\n'
  | 'r' => some '\r'
  | 't' => some '\t'
  | _ => none

/-- A string behind its opening quote. -/
def string : List Char → Option (List Char × List Char)
  | [] => none
  | '"' :: rest => some ([], rest)
  | '\\' :: 'u' :: a :: b :: c :: d :: rest =>
    match hexUnit a b c d with
    | none => none
    | some unit =>
      if isHighSurrogate unit then
        match rest with
        | '\\' :: 'u' :: e :: f :: g :: h :: rest =>
          match hexUnit e f g h with
          | none => none
          | some low =>
            if isLowSurrogate low then
              let c := Char.ofNat (0x10000 + (unit - 0xD800) * 0x400 + (low - 0xDC00))
              (string rest).map fun r => (c :: r.1, r.2)
            else none
        | _ => none
      else if isLowSurrogate unit then none
      else (string rest).map fun r => (Char.ofNat unit :: r.1, r.2)
  | '\\' :: letter :: rest =>
    match unescape letter with
    | none => none
    | some c => (string rest).map fun r => (c :: r.1, r.2)
  | c :: rest => if c.toNat < 0x20 || c == '\\' then none
    else (string rest).map fun r => (c :: r.1, r.2)

/-! ## Numbers -/

/-- Digits behind a point: at least one. Without a point there is no fraction. -/
def fraction : List Char → Option (List Char × List Char)
  | '.' :: rest =>
    match rest.takeWhile Char.isDigit with
    | [] => none
    | digits => some (digits, rest.dropWhile Char.isDigit)
  | rest => some ([], rest)

/-- The digits of an exponent: at least one. -/
def exponentDigits (negative : Bool) (cs : List Char) : Option (Option Int × List Char) :=
  match cs.takeWhile Char.isDigit with
  | [] => none
  | digits =>
    let n : Int := Nat.ofDigitChars 10 digits 0
    some (some (if negative then -n else n), cs.dropWhile Char.isDigit)

/-- An exponent behind its mark, or none. -/
def exponent : List Char → Option (Option Int × List Char)
  | [] => some (none, [])
  | mark :: rest =>
    if mark == 'e' || mark == 'E' then
      match rest with
      | '-' :: digits => exponentDigits true digits
      | '+' :: digits => exponentDigits false digits
      | digits => exponentDigits false digits
    else some (none, mark :: rest)

/-- The integer is kept as one: it fits 64 bits, signed or unsigned. -/
def fitsInteger (n : Int) : Bool := -0x8000000000000000 ≤ n && n < 0x10000000000000000

/-- The value of a number with the given sign, digits before and behind the point, and exponent. -/
def numberValue (negative : Bool) (whole frac : List Char) (exp? : Option Int) : Option Value :=
  let magnitude := Nat.ofDigitChars 10 whole 0
  let n : Int := if negative then -(magnitude : Int) else magnitude
  let negativeZero := negative && magnitude == 0
  if frac.isEmpty && exp?.isNone && fitsInteger n && !negativeZero then some (.int n)
  else
    let d : Decimal := ⟨Nat.ofDigitChars 10 (whole ++ frac) 0, exp?.getD 0 - frac.length⟩
    let x := Double.ofDecimal negative d
    if x.isFinite then some (.float x) else none

/-- A number. A leading zero stands alone before the point. -/
def number (cs : List Char) : Option (Value × List Char) :=
  let negative := cs.head? == some '-'
  let unsigned := if negative then cs.drop 1 else cs
  let whole := unsigned.takeWhile Char.isDigit
  if whole.isEmpty || (whole.head? == some '0' && 1 < whole.length) then none
  else
    match fraction (unsigned.dropWhile Char.isDigit) with
    | none => none
    | some (frac, rest) =>
      match exponent rest with
      | none => none
      | some (exp?, rest) => (numberValue negative whole frac exp?).map (·, rest)

/-! ## Values -/

mutual

/-- A value. -/
def value : Nat → List Char → Option (Value × List Char)
  | 0, _ => none
  | fuel + 1, cs =>
    match skipSpace cs with
    | 'n' :: 'u' :: 'l' :: 'l' :: rest => some (.null, rest)
    | 't' :: 'r' :: 'u' :: 'e' :: rest => some (.bool true, rest)
    | 'f' :: 'a' :: 'l' :: 's' :: 'e' :: rest => some (.bool false, rest)
    | '"' :: rest => (string rest).map fun r => (.str (String.ofList r.1), r.2)
    | '[' :: rest =>
      match skipSpace rest with
      | ']' :: rest => some (.arr [], rest)
      | rest => (items fuel rest).map fun r => (.arr r.1, r.2)
    | '\x7b' :: rest =>
      match skipSpace rest with
      | '\x7d' :: rest => some (.obj [], rest)
      | rest => (members fuel [] rest).map fun r => (.obj r.1, r.2)
    | rest => number rest

/-- One item or more, up to the closing bracket. -/
def items : Nat → List Char → Option (List Value × List Char)
  | 0, _ => none
  | fuel + 1, cs =>
    match value fuel cs with
    | none => none
    | some (v, rest) =>
      match skipSpace rest with
      | ',' :: rest => (items fuel rest).map fun r => (v :: r.1, r.2)
      | ']' :: rest => some ([v], rest)
      | _ => none

/-- One member or more, up to the closing brace, written into those read before. -/
def members : Nat → Object → List Char → Option (Object × List Char)
  | 0, _, _ => none
  | fuel + 1, done, cs =>
    match skipSpace cs with
    | '"' :: rest =>
      match string rest with
      | none => none
      | some (key, rest) =>
        match skipSpace rest with
        | ':' :: rest =>
          match value fuel rest with
          | none => none
          | some (v, rest) =>
            let done := done.insert (String.ofList key) v
            match skipSpace rest with
            | ',' :: rest => members fuel done rest
            | '\x7d' :: rest => some (done, rest)
            | _ => none
        | _ => none
    | _ => none

end

end SearchRequest.Reader

namespace SearchRequest

/-- The value that a text spells, with blanks around it allowed. -/
def Value.parse? (text : String) : Option Value :=
  let cs := text.toList
  match Reader.value (2 * cs.length + 2) cs with
  | some (v, rest) => if (Reader.skipSpace rest).isEmpty then some v else none
  | none => none

end SearchRequest

import SearchRequest.Json.Value
import SearchRequest.Number.Style

/-!
# JSON text

`Value.chars` writes a value, `Value.text` as a string. One function serves both forms of text; they
differ in the blanks between the tokens only, which a `Spacing` gives:

* `Spacing.compact` — no blanks at all.
* `Spacing.indented` — one item or member a line, two blanks a level, a blank after each colon.
  Empty containers stay on their line as `[]` and `{}`.

In a string the quote, the backslash and the control characters below U+0020 are escaped. Everything
else stands for itself.
-/

namespace SearchRequest

/-! ## Strings -/

/-- The digit of a value below sixteen, in lower case. -/
def hexDigit (n : Nat) : Char := Nat.digitChar (n % 16)

/-- One character of a string. -/
def escapeChar (c : Char) : List Char :=
  match c with
  | '"' => ['\\', '"']
  | '\\' => ['\\', '\\']
  | '\x08' => ['\\', 'b']
  | '\t' => ['\\', 't']
  | '\n' => ['\\', 'n']
  | '\x0c' => ['\\', 'f']
  | '\r' => ['\\', 'r']
  | c =>
    if c.toNat < 0x20 then ['\\', 'u', '0', '0', hexDigit (c.toNat / 16), hexDigit c.toNat] else [c]

/-- The characters of a string with the escapes in place. -/
def escapeChars (cs : List Char) : List Char := cs.flatMap escapeChar

/-- A string between its quotes. -/
def quotedChars (s : String) : List Char := '"' :: (escapeChars s.toList ++ ['"'])

/-! ## Integers -/

/-- A decimal integer, with its sign when it is negative. -/
def intChars (n : Int) : List Char :=
  if n < 0 then '-' :: Nat.toDigits 10 n.natAbs else Nat.toDigits 10 n.natAbs

/-! ## Values -/

/-- The blanks between the tokens of a text. -/
structure Spacing where
  /-- what stands before an item, a member or a closing bracket at the given depth -/
  newline : Nat → List Char
  /-- what stands after a colon -/
  gap : List Char

namespace Spacing

/-- No blanks. -/
def compact : Spacing := ⟨fun _ => [], []⟩

/-- One item or member a line, two blanks a level. -/
def indented : Spacing := ⟨fun depth => '\n' :: List.replicate (2 * depth) ' ', [' ']⟩

end Spacing

namespace Value

mutual

/-- The text of a value that stands at the given depth. -/
def chars (spacing : Spacing) (depth : Nat) : Value → List Char
  | .null => ['n', 'u', 'l', 'l']
  | .bool true => ['t', 'r', 'u', 'e']
  | .bool false => ['f', 'a', 'l', 's', 'e']
  | .int n => intChars n
  | .float x => if x.isFinite then x.chars .json else ['n', 'u', 'l', 'l']
  | .str s => quotedChars s
  | .arr [] => ['[', ']']
  | .arr (v :: rest) =>
    '[' :: (spacing.newline (depth + 1) ++ chars spacing (depth + 1) v ++
      itemChars spacing (depth + 1) rest ++ spacing.newline depth ++ [']'])
  | .obj [] => ['\x7b', '\x7d']
  | .obj ((k, v) :: rest) =>
    '\x7b' :: (spacing.newline (depth + 1) ++ quotedChars k ++ ':' :: spacing.gap ++
      chars spacing (depth + 1) v ++ memberChars spacing (depth + 1) rest ++
      spacing.newline depth ++ ['\x7d'])
termination_by structural v => v

/-- The items after the first, each behind its comma. -/
def itemChars (spacing : Spacing) (depth : Nat) : List Value → List Char
  | [] => []
  | v :: rest =>
    ',' :: (spacing.newline depth ++ chars spacing depth v ++ itemChars spacing depth rest)
termination_by structural vs => vs

/-- The members after the first, each behind its comma. -/
def memberChars (spacing : Spacing) (depth : Nat) : List (String × Value) → List Char
  | [] => []
  | (k, v) :: rest =>
    ',' :: (spacing.newline depth ++ quotedChars k ++ ':' :: spacing.gap ++
      chars spacing depth v ++ memberChars spacing depth rest)
termination_by structural ms => ms

end

/-- The text of a value. -/
def text (spacing : Spacing) (v : Value) : String := String.ofList (v.chars spacing 0)

end Value

end SearchRequest

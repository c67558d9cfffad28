import Mathlib.Data.List.DropRight
import SearchRequest.Json.Printer
import SearchRequest.Proofs.Reading
import SearchRequest.Proofs.Spans

/-!
# Reading written JSON

`Value.parse?` reads what `Value.text` writes, and gives the value back: escapes stand for the
characters that were escaped, the digits of an integer for the integer, and the members of an object
are found in their order. The blanks between the tokens do not matter as long as they are blanks, so
that both forms of text are covered at once.

Two kinds of value are left out. A key that an object has twice is read once, and which number is
nearest to the digits of a floating number is a matter of its own. So the main statement,
`Value.parse_text`, asks for well-formed values without floating numbers (`Value.integral`).

Each reader is shown to read what was written and to leave what stands behind it. For integers
alone it matters what this is: a digit would be taken for one more digit. What stands behind a
written value is a comma, a closing bracket, a blank, or nothing (`Reader.Delimited`).
-/

namespace SearchRequest

/-! ## Values without floating numbers -/

namespace Value

mutual

/-- All numbers in the value are integers that fit 64 bits, signed or unsigned. -/
def integral : Value → Bool
  | .int n => Reader.fitsInteger n
  | .float _ => false
  | .arr items => integralItems items
  | .obj members => integralMembers members
  | _ => true
termination_by structural v => v

/-- All numbers in the items are integers that fit. -/
def integralItems : List Value → Bool
  | [] => true
  | v :: rest => v.integral && integralItems rest
termination_by structural vs => vs

/-- All numbers in the values of the members are integers that fit. -/
def integralMembers : List (String × Value) → Bool
  | [] => true
  | (_, v) :: rest => v.integral && integralMembers rest
termination_by structural ms => ms

end

end Value

/-! ## Strings -/

namespace Reader

theorem hexUnit_hexDigit :
    ∀ n < 0x20, hexUnit '0' '0' (hexDigit (n / 16)) (hexDigit n) = some n := by
  decide

/-- A control character is read from its four digits. -/
theorem string_control {c : Char} (h : c.toNat < 0x20) (rest : List Char) :
    string ('\\' :: 'u' :: '0' :: '0' :: hexDigit (c.toNat / 16) :: hexDigit c.toNat :: rest) =
      (string rest).map fun r => (c :: r.1, r.2) := by
  have hhigh : isHighSurrogate c.toNat = false := by
    simp only [isHighSurrogate, Bool.and_eq_false_iff, decide_eq_false_iff_not]
    omega
  have hlow : isLowSurrogate c.toNat = false := by
    simp only [isLowSurrogate, Bool.and_eq_false_iff, decide_eq_false_iff_not]
    omega
  rw [string, hexUnit_hexDigit _ h]
  simp only [hhigh, hlow, Char.ofNat_toNat]
  rfl

/-- A character that is not escaped stands for itself. -/
theorem string_plain {c : Char} (hquote : c ≠ '"') (hslash : c ≠ '\\') (h : ¬ c.toNat < 0x20)
    (rest : List Char) : string (c :: rest) = (string rest).map fun r => (c :: r.1, r.2) := by
  have hplain : ¬ (c.toNat < 0x20 || c == '\\') = true := by
    simp [h, hslash]
  rw [string.eq_def]
  split
  case h_5 he =>
    obtain ⟨rfl, rfl⟩ := List.cons.inj he
    rw [if_neg hplain]
  all_goals simp_all

/-- **One written character** is read as it was. -/
theorem string_escapeChar (c : Char) (rest : List Char) :
    string (escapeChar c ++ rest) = (string rest).map fun r => (c :: r.1, r.2) := by
  unfold escapeChar
  split
  case h_8 hquote hslash _ _ _ _ _ =>
    by_cases h : c.toNat < 0x20
    · rw [if_pos h]
      exact string_control h rest
    · rw [if_neg h]
      exact string_plain hquote hslash h rest
  -- the characters with an escape of their own
  all_goals simp [string, unescape]

/-- A written string is read up to its closing quote. -/
theorem string_escapeChars (cs rest : List Char) :
    string (escapeChars cs ++ '"' :: rest) = some (cs, rest) := by
  induction cs with
  | nil => simp [escapeChars, string]
  | cons c cs ih =>
    have hsplit : escapeChars (c :: cs) = escapeChar c ++ escapeChars cs := rfl
    rw [hsplit, List.append_assoc, string_escapeChar, ih]
    rfl

/-! ## Blanks -/

theorem eq_of_isSpace {c : Char} (h : isSpace c = true) :
    c = ' ' ∨ c = '\t' ∨ c = '\n' ∨ c = '\r' := by
  simpa [isSpace, or_assoc] using h

/-- Blanks in front are skipped. -/
theorem skipSpace_append {blanks : List Char} (h : ∀ c ∈ blanks, isSpace c = true)
    (cs : List Char) : skipSpace (blanks ++ cs) = skipSpace cs :=
  List.dropWhile_append_of_pos h

theorem skipSpace_cons {c : Char} (h : isSpace c = false) (cs : List Char) :
    skipSpace (c :: cs) = c :: cs := by
  rw [skipSpace, List.dropWhile_cons_of_neg]
  rw [h]
  exact Bool.false_ne_true

theorem skipSpace_skipSpace (cs : List Char) : skipSpace (skipSpace cs) = skipSpace cs :=
  List.dropWhile_idempotent isSpace cs

section Skipping

variable (fuel : Nat) (cs : List Char)

/-- No reader sees whether blanks in front have been skipped. -/
theorem value_skipSpace : value fuel (skipSpace cs) = value fuel cs := by
  cases fuel with
  | zero => rw [value, value]
  | succ fuel => rw [value, value, skipSpace_skipSpace]

@[inherit_doc value_skipSpace]
theorem items_skipSpace : items fuel (skipSpace cs) = items fuel cs := by
  cases fuel with
  | zero => rw [items, items]
  | succ fuel => rw [items, items, value_skipSpace]

@[inherit_doc value_skipSpace]
theorem members_skipSpace (done : Object) :
    members fuel done (skipSpace cs) = members fuel done cs := by
  cases fuel with
  | zero => rw [members, members]
  | succ fuel => rw [members, members, skipSpace_skipSpace]

variable {blanks : List Char} (h : ∀ c ∈ blanks, isSpace c = true)
include h

/-- A value may stand behind blanks. -/
theorem value_append : value fuel (blanks ++ cs) = value fuel cs := by
  rw [← value_skipSpace, skipSpace_append h, value_skipSpace]

/-- The first item may stand behind blanks. -/
theorem items_append : items fuel (blanks ++ cs) = items fuel cs := by
  rw [← items_skipSpace, skipSpace_append h, items_skipSpace]

end Skipping

/-! ## What stands behind a value -/

/-- What may stand behind a value: a comma, a closing bracket, a blank, or nothing. -/
def Delimited (cs : List Char) : Prop :=
  ∀ c ∈ cs.head?, c = ',' ∨ c = ']' ∨ c = '\x7d' ∨ isSpace c = true

namespace Delimited

theorem nil : Delimited [] := nofun

theorem cons {c : Char} (h : c = ',' ∨ c = ']' ∨ c = '\x7d' ∨ isSpace c = true) (cs : List Char) :
    Delimited (c :: cs) := by
  intro d hd
  obtain rfl := Option.some.inj hd
  exact h

/-- What begins with blanks, or else with a delimiter. -/
theorem append {blanks cs : List Char} (h : ∀ c ∈ blanks, isSpace c = true) (hcs : Delimited cs) :
    Delimited (blanks ++ cs) := by
  rcases blanks with _ | ⟨c, rest⟩
  · exact hcs
  · exact .cons (.inr (.inr (.inr (h c List.mem_cons_self)))) _

variable {cs : List Char}

/-- No number goes on with a delimiter. -/
theorem head_ne (h : Delimited cs) {c : Char} (hc : c ∈ cs.head?) :
    c.isDigit = false ∧ c ≠ '.' ∧ c ≠ 'e' ∧ c ≠ 'E' := by
  rcases h c hc with rfl | rfl | rfl | hs
  · decide
  · decide
  · decide
  · rcases eq_of_isSpace hs with rfl | rfl | rfl | rfl <;> decide

/-- Digits are read up to the delimiter. -/
theorem takeWhile_isDigit (h : Delimited cs) {digits : List Char}
    (hd : ∀ c ∈ digits, c.isDigit = true) :
    (digits ++ cs).takeWhile Char.isDigit = digits ∧
      (digits ++ cs).dropWhile Char.isDigit = cs := by
  have hstops : Stops Char.isDigit cs := fun _ hc => (h.head_ne hc).1
  exact ⟨hstops.takeWhile_append hd, hstops.dropWhile_append hd⟩

/-- Neither a fraction nor an exponent begins with a delimiter. -/
theorem fraction_exponent (h : Delimited cs) :
    fraction cs = some ([], cs) ∧ exponent cs = some (none, cs) := by
  rcases cs with _ | ⟨c, rest⟩
  · exact ⟨rfl, rfl⟩
  · obtain ⟨-, hpoint, hsmall, hlarge⟩ := h.head_ne (c := c) rfl
    constructor
    · unfold fraction
      split
      · next he => exact absurd (List.cons.inj he).1 hpoint
      · rfl
    · have hmark : ¬ (c == 'e' || c == 'E') = true := by
        simp [hsmall, hlarge]
      unfold exponent
      exact if_neg hmark

end Delimited

end Reader

/-! ## Integers -/

/-- Decimal digits have no leading zero, except in zero itself. -/
theorem head_toDigits_ne_zero {n : Nat} (h : 0 < n) : (Nat.toDigits 10 n).head? ≠ some '0' := by
  induction n using Nat.strongRecOn with
  | _ n ih =>
    by_cases hlt : n < 10
    · have hdigit : ∀ m < 10, 0 < m → [Nat.digitChar m].head? ≠ some '0' := by decide
      rw [Nat.toDigits_of_lt_base hlt]
      exact hdigit n hlt h
    · -- the digits of `n` begin with those of `n / 10`
      have hsplit : Nat.toDigits 10 n = Nat.toDigits 10 (n / 10) ++ Nat.toDigits 10 (n % 10) := by
        rw [Nat.toDigits_append_toDigits (by omega) (by omega) (Nat.mod_lt n (by omega)),
          Nat.div_add_mod]
      have hfirst := ih (n / 10) (by omega) (by omega)
      rw [hsplit]
      rcases hd : Nat.toDigits 10 (n / 10) with _ | ⟨c, rest⟩
      · exact absurd hd Nat.toDigits_ne_nil
      · rw [hd] at hfirst
        exact hfirst

namespace Reader

/-- A sign and digits are read up to the delimiter. -/
theorem number_digits {negative : Bool} {digits rest : List Char}
    (hd : ∀ c ∈ digits, c.isDigit = true) (hne : digits ≠ [])
    (hzero : digits.head? = some '0' → digits.length = 1) (hr : Delimited rest) :
    number ((if negative then ['-'] else []) ++ digits ++ rest) =
      (numberValue negative digits [] none).map (·, rest) := by
  obtain ⟨first, others, rfl⟩ := List.exists_cons_of_ne_nil hne
  have hsign : (((if negative then ['-'] else []) ++ first :: others ++ rest).head? == some '-') =
      negative := by
    have hfirst : first ≠ '-' := by
      rintro rfl
      exact absurd (hd '-' List.mem_cons_self) (by decide)
    cases negative <;> simp [hfirst]
  have hdrop : (if negative then
      ((if negative then ['-'] else []) ++ first :: others ++ rest).drop 1
      else (if negative then ['-'] else []) ++ first :: others ++ rest) =
      first :: others ++ rest := by
    cases negative <;> rfl
  have hlead : ¬ ((first :: others).isEmpty ||
      ((first :: others).head? == some '0' && decide (1 < (first :: others).length))) = true := by
    simp only [List.isEmpty_cons, Bool.false_or, Bool.and_eq_true, beq_iff_eq, decide_eq_true_iff,
      not_and]
    intro hz
    exact Nat.not_lt_of_le (Nat.le_of_eq (hzero hz))
  obtain ⟨htake, hleft⟩ := hr.takeWhile_isDigit hd
  obtain ⟨hfraction, hexponent⟩ := hr.fraction_exponent
  rw [number]
  simp only [hsign, hdrop, htake, hleft, if_neg hlead, hfraction, hexponent]

/-- The digits of an integer have its value. -/
theorem numberValue_toDigits {n : Int} (hn : fitsInteger n = true) :
    numberValue (decide (n < 0)) (Nat.toDigits 10 n.natAbs) [] none = some (.int n) := by
  have hvalue : (if decide (n < 0) = true then -(n.natAbs : Int) else n.natAbs) = n := by
    by_cases hneg : n < 0
    · rw [if_pos (decide_eq_true hneg)]
      omega
    · rw [if_neg (by simpa using hneg)]
      omega
  have hzero : (decide (n < 0) && n.natAbs == 0) = false := by
    simp only [Bool.and_eq_false_iff, decide_eq_false_iff_not, beq_eq_false_iff_ne]
    omega
  unfold numberValue
  simp only [Nat.ofDigitChars_ten_toDigits, hvalue, hzero, hn]
  rfl

/-- **A written integer** is read as the integer. -/
theorem number_intChars {n : Int} (hn : fitsInteger n = true) {rest : List Char}
    (hr : Delimited rest) : number (intChars n ++ rest) = some (.int n, rest) := by
  have hsign : intChars n =
      (if decide (n < 0) = true then ['-'] else []) ++ Nat.toDigits 10 n.natAbs := by
    rw [intChars]
    by_cases hneg : n < 0 <;> simp [hneg]
  have hdigits : ∀ c ∈ Nat.toDigits 10 n.natAbs, c.isDigit = true := fun c hc =>
    Nat.isDigit_of_mem_toDigits (by omega) (by omega) hc
  have hzero : (Nat.toDigits 10 n.natAbs).head? = some '0' →
      (Nat.toDigits 10 n.natAbs).length = 1 := by
    rcases Nat.eq_zero_or_pos n.natAbs with hz | hpos
    · rw [hz]
      exact fun _ => rfl
    · exact fun h => absurd h (head_toDigits_ne_zero hpos)
  rw [hsign, number_digits hdigits Nat.toDigits_ne_nil hzero hr, numberValue_toDigits hn]
  rfl

/-- The first character of a written integer is a sign or a digit. -/
theorem exists_intChars_eq_cons (n : Int) :
    ∃ c cs, intChars n = c :: cs ∧ (c = '-' ∨ c.isDigit = true) := by
  obtain ⟨c, cs, hc⟩ := List.exists_cons_of_ne_nil (Nat.toDigits_ne_nil (n := n.natAbs) (b := 10))
  rw [intChars, hc]
  by_cases hneg : n < 0
  · exact ⟨_, _, if_pos hneg, .inl rfl⟩
  · refine ⟨_, _, if_neg hneg, .inr ?_⟩
    have hmem : c ∈ Nat.toDigits 10 n.natAbs := hc ▸ List.mem_cons_self
    exact Nat.isDigit_of_mem_toDigits (by decide) (by decide) hmem

theorem isSpace_of_number {c : Char} (h : c = '-' ∨ c.isDigit = true) : isSpace c = false := by
  rw [Bool.eq_false_iff]
  intro hs
  rcases eq_of_isSpace hs with rfl | rfl | rfl | rfl <;> exact absurd h (by decide)

/-- A value that begins with a sign or a digit is a number. -/
theorem value_number {c : Char} (h : c = '-' ∨ c.isDigit = true) (fuel : Nat) (cs : List Char) :
    value (fuel + 1) (c :: cs) = number (c :: cs) := by
  rw [value, skipSpace_cons (isSpace_of_number h)]
  split
  case h_7 => rfl
  -- no other value begins so
  all_goals
    next he =>
      obtain ⟨rfl, -⟩ := List.cons.inj he
      exact absurd h (by decide)

end Reader

/-! ## Values -/

/-- Nothing but blanks stands between the tokens. -/
structure Spacing.Blank (spacing : Spacing) : Prop where
  newline (depth : Nat) : ∀ c ∈ spacing.newline depth, Reader.isSpace c = true
  gap : ∀ c ∈ spacing.gap, Reader.isSpace c = true

namespace Spacing.Blank

theorem compact : Spacing.compact.Blank where
  newline _ := nofun
  gap := nofun

theorem indented : Spacing.indented.Blank where
  newline depth := by
    intro c hc
    rcases List.mem_cons.1 hc with rfl | hc
    · rfl
    · rw [List.eq_of_mem_replicate hc]
      rfl
  gap := by
    intro c hc
    rw [List.mem_singleton.1 hc]
    rfl

end Spacing.Blank

namespace Value

variable (spacing : Spacing) (depth : Nat)

/-- The items of a list stand one behind the other, without the comma in front of the first. -/
theorem chars_arr (v : Value) (rest : List Value) :
    (Value.arr (v :: rest)).chars spacing depth =
      '[' :: ((itemChars spacing (depth + 1) (v :: rest)).tail ++
        (spacing.newline depth ++ [']'])) := by
  rw [chars, itemChars, List.tail_cons]
  simp only [List.append_assoc]

/-- The members of an object stand one behind the other, without the comma in front of the first. -/
theorem chars_obj (m : String × Value) (rest : List (String × Value)) :
    (Value.obj (m :: rest)).chars spacing depth =
      '\x7b' :: ((memberChars spacing (depth + 1) (m :: rest)).tail ++
        (spacing.newline depth ++ ['\x7d'])) := by
  obtain ⟨k, v⟩ := m
  rw [chars, memberChars, List.tail_cons]
  simp only [List.append_assoc, List.cons_append]

/-- No written value begins with a blank, or like the end of a list. -/
theorem exists_chars_eq_cons {v : Value} (hi : v.integral = true) :
    ∃ c cs, v.chars spacing depth = c :: cs ∧ Reader.isSpace c = false ∧ c ≠ ']' := by
  cases v with
  | null => exact ⟨_, _, rfl, by decide, by decide⟩
  | bool b => cases b <;> exact ⟨_, _, rfl, by decide, by decide⟩
  | int n =>
    obtain ⟨c, cs, hc, hfirst⟩ := Reader.exists_intChars_eq_cons n
    refine ⟨c, cs, hc, Reader.isSpace_of_number hfirst, ?_⟩
    rintro rfl
    exact absurd hfirst (by decide)
  | float x => cases hi
  | str s => exact ⟨_, _, rfl, by decide, by decide⟩
  | arr items => cases items <;> exact ⟨_, _, rfl, by decide, by decide⟩
  | obj members => cases members <;> exact ⟨_, _, rfl, by decide, by decide⟩

end Value

namespace Reader

/-! ### Lists and objects, token by token -/

section Tokens

variable {fuel : Nat} {cs rest behind : List Char} {v : Value}

/-- A list that does not end at once holds items. -/
theorem value_arr {c : Char} (h : skipSpace cs = c :: rest) (hc : c ≠ ']') :
    value (fuel + 1) ('[' :: cs) = (items fuel cs).map fun r => (.arr r.1, r.2) := by
  rw [value, skipSpace_cons (by decide), ← items_skipSpace]
  simp only [h]
  split
  · next he => exact absurd (List.cons.inj he).1 hc
  · rfl

/-- Behind an item comes another one, -/
theorem items_comma (hv : value fuel cs = some (v, rest)) (hc : skipSpace rest = ',' :: behind) :
    items (fuel + 1) cs = (items fuel behind).map fun r => (v :: r.1, r.2) := by
  rw [items, hv]
  simp only [hc]

/-- or the end of the list. -/
theorem items_bracket (hv : value fuel cs = some (v, rest))
    (hc : skipSpace rest = ']' :: behind) : items (fuel + 1) cs = some ([v], behind) := by
  rw [items, hv]
  simp only [hc]

/-- An object that goes on with a quote holds members. -/
theorem value_obj (h : skipSpace cs = '"' :: rest) :
    value (fuel + 1) ('\x7b' :: cs) = (members fuel [] cs).map fun r => (.obj r.1, r.2) := by
  rw [value, skipSpace_cons (by decide), ← members_skipSpace]
  simp only [h]
  rfl

variable {done : Object} {key : String} {inner : List Char}

/-- Behind a member comes another one, -/
theorem members_comma (hk : skipSpace cs = quotedChars key ++ ':' :: inner)
    (hv : value fuel inner = some (v, rest)) (hc : skipSpace rest = ',' :: behind) :
    members (fuel + 1) done cs = members fuel (done.insert key v) behind := by
  have hcolon : skipSpace (':' :: inner) = ':' :: inner := skipSpace_cons (by decide) _
  rw [members, hk, quotedChars, List.cons_append, List.append_assoc]
  simp only [List.singleton_append, string_escapeChars, hcolon, hv, hc, String.ofList_toList]

/-- or the end of the object. -/
theorem members_brace (hk : skipSpace cs = quotedChars key ++ ':' :: inner)
    (hv : value fuel inner = some (v, rest)) (hc : skipSpace rest = '\x7d' :: behind) :
    members (fuel + 1) done cs = some (done.insert key v, behind) := by
  have hcolon : skipSpace (':' :: inner) = ':' :: inner := skipSpace_cons (by decide) _
  rw [members, hk, quotedChars, List.cons_append, List.append_assoc]
  simp only [List.singleton_append, string_escapeChars, hcolon, hv, hc, String.ofList_toList]

end Tokens

/-! ### What is written -/

variable {spacing : Spacing}

/-- Behind an item stands a delimiter. -/
theorem delimited_items (hs : spacing.Blank) (depth outer : Nat) (vs : List Value)
    (rest : List Char) : Delimited
      (Value.itemChars spacing depth vs ++ (spacing.newline outer ++ ']' :: rest)) := by
  cases vs with
  | nil =>
    rw [Value.itemChars, List.nil_append]
    exact .append (hs.newline outer) (.cons (.inr (.inl rfl)) _)
  | cons v vs => exact .cons (.inl rfl) _

/-- Behind a member stands a delimiter. -/
theorem delimited_members (hs : spacing.Blank) (depth outer : Nat) (ms : List (String × Value))
    (rest : List Char) : Delimited
      (Value.memberChars spacing depth ms ++ (spacing.newline outer ++ '\x7d' :: rest)) := by
  rcases ms with _ | ⟨⟨k, v⟩, ms⟩
  · rw [Value.memberChars, List.nil_append]
    exact .append (hs.newline outer) (.cons (.inr (.inr (.inl rfl))) _)
  · exact .cons (.inl rfl) _

/-- The first item of a list does not begin like the end of the list. -/
theorem skipSpace_items (hs : spacing.Blank) (depth : Nat) {v : Value} (hi : v.integral = true)
    (vs : List Value) (behind : List Char) :
    ∃ c rest, skipSpace ((Value.itemChars spacing depth (v :: vs)).tail ++ behind) = c :: rest ∧
      c ≠ ']' := by
  obtain ⟨c, cs, hc, hblank, hne⟩ := Value.exists_chars_eq_cons spacing depth hi
  refine ⟨c, cs ++ (Value.itemChars spacing depth vs ++ behind), ?_, hne⟩
  rw [Value.itemChars, List.tail_cons, List.append_assoc, List.append_assoc,
    skipSpace_append (hs.newline depth), hc, List.cons_append, skipSpace_cons hblank]

/-- The first member of an object begins with its key. -/
theorem skipSpace_members (hs : spacing.Blank) (depth : Nat) (key : String) (v : Value)
    (ms : List (String × Value)) (behind : List Char) :
    skipSpace ((Value.memberChars spacing depth ((key, v) :: ms)).tail ++ behind) =
      quotedChars key ++ ':' :: (spacing.gap ++ (v.chars spacing depth ++
        (Value.memberChars spacing depth ms ++ behind))) := by
  rw [Value.memberChars, List.tail_cons]
  simp only [List.append_assoc, List.cons_append]
  rw [skipSpace_append (hs.newline depth), quotedChars, List.cons_append,
    skipSpace_cons (by decide)]

-- a value is read through its items and members, so that the three statements are proved together
mutual

/-- **A written value** is read, up to what stands behind it. -/
theorem value_chars (hs : spacing.Blank) (v : Value) (hw : v.wellFormed = true)
    (hi : v.integral = true) (depth fuel : Nat) {rest : List Char} (hr : Delimited rest)
    (hf : 2 * (v.chars spacing depth).length < fuel) :
    value fuel (v.chars spacing depth ++ rest) = some (v, rest) := by
  obtain ⟨fuel, rfl⟩ := Nat.exists_eq_add_one_of_ne_zero (Nat.ne_zero_of_lt hf)
  cases v with
  | null => rfl
  | bool b => cases b <;> rfl
  | int n =>
    obtain ⟨c, cs, hc, hfirst⟩ := exists_intChars_eq_cons n
    have hnumber := number_intChars hi hr
    rw [Value.chars]
    rw [hc, List.cons_append] at hnumber ⊢
    rw [value_number hfirst, hnumber]
  | float x => cases hi
  | str s =>
    rw [Value.chars, quotedChars, List.cons_append, List.append_assoc, value,
      skipSpace_cons (by decide)]
    simp only [List.singleton_append, string_escapeChars, Option.map_some, String.ofList_toList]
  | arr vs =>
    rcases vs with _ | ⟨v, vs⟩
    · rfl
    · obtain ⟨hiv, -⟩ := Bool.and_eq_true_iff.1 hi
      rw [Value.chars_arr] at hf ⊢
      simp only [List.length_cons, List.length_append, List.length_tail] at hf
      obtain ⟨c, behind, hc, hne⟩ := skipSpace_items hs (depth + 1) hiv vs
        (spacing.newline depth ++ ']' :: rest)
      have hitems := items_chars hs (v :: vs) (List.cons_ne_nil _ _) hw hi (depth + 1) depth fuel
        rest (by omega)
      rw [List.cons_append, List.append_assoc, List.append_assoc, List.singleton_append,
        value_arr hc hne, hitems]
      rfl
  | obj ms =>
    rcases ms with _ | ⟨⟨k, v⟩, ms⟩
    · rfl
    · obtain ⟨hnodup, hwms⟩ := Bool.and_eq_true_iff.1 hw
      rw [Value.chars_obj] at hf ⊢
      simp only [List.length_cons, List.length_append, List.length_tail] at hf
      have hbegin := skipSpace_members hs (depth + 1) k v ms
        (spacing.newline depth ++ '\x7d' :: rest)
      have hmembers := members_chars hs ((k, v) :: ms) (List.cons_ne_nil _ _) hwms hi
        (depth + 1) depth fuel [] rest (by omega)
      -- the keys are distinct, so that no member is written into another's place
      rw [Object.foldl_insert (of_decide_eq_true hnodup) (fun _ _ => List.not_mem_nil),
        List.nil_append] at hmembers
      rw [List.cons_append, List.append_assoc, List.append_assoc, List.singleton_append,
        value_obj hbegin, hmembers]
      rfl
termination_by structural v

/-- Written items are read up to the closing bracket. -/
theorem items_chars (hs : spacing.Blank) (vs : List Value) (hne : vs ≠ [])
    (hw : Value.wellFormedItems vs = true) (hi : Value.integralItems vs = true)
    (depth outer fuel : Nat) (rest : List Char)
    (hf : 2 * (Value.itemChars spacing depth vs).length < fuel) :
    items fuel ((Value.itemChars spacing depth vs).tail ++
      (spacing.newline outer ++ ']' :: rest)) = some (vs, rest) := by
  obtain ⟨fuel, rfl⟩ := Nat.exists_eq_add_one_of_ne_zero (Nat.ne_zero_of_lt hf)
  cases vs with
  | nil => exact absurd rfl hne
  | cons v vs =>
    obtain ⟨hwv, hws⟩ := Bool.and_eq_true_iff.1 hw
    obtain ⟨hiv, his⟩ := Bool.and_eq_true_iff.1 hi
    rw [Value.itemChars] at hf ⊢
    simp only [List.length_cons, List.length_append] at hf
    have hvalue := value_chars hs v hwv hiv depth fuel
      (delimited_items hs depth outer vs rest) (by omega)
    rw [List.tail_cons, List.append_assoc, List.append_assoc, items_append _ _ (hs.newline depth)]
    rcases vs with _ | ⟨w, ws⟩
    · refine items_bracket hvalue ?_
      rw [Value.itemChars, List.nil_append, skipSpace_append (hs.newline outer),
        skipSpace_cons (by decide)]
    · have hrest := items_chars hs (w :: ws) (List.cons_ne_nil _ _) hws his depth outer fuel
        rest (by omega)
      obtain ⟨behind, hcomma⟩ : ∃ behind,
          Value.itemChars spacing depth (w :: ws) = ',' :: behind := ⟨_, rfl⟩
      rw [hcomma, List.tail_cons] at hrest
      rw [items_comma hvalue (by rw [hcomma, List.cons_append, skipSpace_cons (by decide)]), hrest]
      rfl
termination_by structural vs

/-- Written members are read up to the closing brace, and written into those read before. -/
theorem members_chars (hs : spacing.Blank) (ms : List (String × Value)) (hne : ms ≠ [])
    (hw : Value.wellFormedMembers ms = true) (hi : Value.integralMembers ms = true)
    (depth outer fuel : Nat) (done : Object) (rest : List Char)
    (hf : 2 * (Value.memberChars spacing depth ms).length < fuel) :
    members fuel done ((Value.memberChars spacing depth ms).tail ++
      (spacing.newline outer ++ '\x7d' :: rest)) =
      some (ms.foldl (fun done m => done.insert m.1 m.2) done, rest) := by
  obtain ⟨fuel, rfl⟩ := Nat.exists_eq_add_one_of_ne_zero (Nat.ne_zero_of_lt hf)
  cases ms with
  | nil => exact absurd rfl hne
  | cons m ms =>
    obtain ⟨k, v⟩ := m
    obtain ⟨hwv, hws⟩ := Bool.and_eq_true_iff.1 hw
    obtain ⟨hiv, his⟩ := Bool.and_eq_true_iff.1 hi
    rw [Value.memberChars] at hf
    simp only [List.length_cons, List.length_append] at hf
    have hkey := skipSpace_members hs depth k v ms (spacing.newline outer ++ '\x7d' :: rest)
    have hvalue := value_chars hs v hwv hiv depth fuel
      (delimited_members hs depth outer ms rest) (by omega)
    rw [← value_append _ _ hs.gap] at hvalue
    rcases ms with _ | ⟨m', ms⟩
    · refine members_brace hkey hvalue ?_
      rw [Value.memberChars, List.nil_append, skipSpace_append (hs.newline outer),
        skipSpace_cons (by decide)]
    · have hrest := members_chars hs (m' :: ms) (List.cons_ne_nil _ _) hws his depth outer fuel
        (done.insert k v) rest (by omega)
      obtain ⟨behind, hcomma⟩ : ∃ behind,
          Value.memberChars spacing depth (m' :: ms) = ',' :: behind := ⟨_, rfl⟩
      rw [hcomma, List.tail_cons] at hrest
      rw [members_comma hkey hvalue (by rw [hcomma, List.cons_append, skipSpace_cons (by decide)]),
        hrest]
      rfl
termination_by structural ms

end

end Reader

/-- **Reading written JSON** gives the value back, if no object in it has a key twice and all its
numbers are integers. -/
theorem Value.parse_text {v : Value} (hw : v.wellFormed = true) (hi : v.integral = true)
    {spacing : Spacing} (hs : spacing.Blank) : parse? (v.text spacing) = some v := by
  have hread := Reader.value_chars hs v hw hi 0 (2 * (v.chars spacing 0).length + 2)
    Reader.Delimited.nil (by omega)
  rw [List.append_nil] at hread
  rw [parse?, text]
  simp only [String.toList_ofList, hread]
  rfl

end SearchRequest

import Mathlib.Algebra.Group.Nat.Defs
import SearchRequest.Time.Text

/-!
# Numbers of a fixed width

Numbers that are written with leading zeros up to one common width are in the order of their texts,
and this remains so whatever stands behind them (`padded_append_lt_iff`): the first digit in which
two numbers of one width differ decides, and only if there is none do the texts behind them count.

* `field?` — a number of some width, read from the front of a text, and what is left.
* `utf8` — the bytes of a text. Between texts of characters below 128 the order of bytes is that of
  the characters (`utf8_lt_utf8_iff`).
-/

namespace SearchRequest

/-! ## The last digit -/

theorem padded_one {n : Nat} (h : n < 10) : padded 1 n = [Nat.digitChar n] := by
  rw [padded, Nat.toDigits_of_lt_base h]
  rfl

/-- All digits but the last one are those of a tenth of the number, written one place shorter. -/
theorem padded_succ (width n : Nat) :
    padded (width + 2) n = padded (width + 1) (n / 10) ++ [Nat.digitChar (n % 10)] := by
  by_cases h : n < 10
  · rw [Nat.div_eq_of_lt h, Nat.mod_eq_of_lt h, padded, padded, Nat.toDigits_of_lt_base h,
      Nat.toDigits_zero]
    have hzeros : List.replicate (width + 1) '0' = List.replicate width '0' ++ ['0'] :=
      List.replicate_succ'
    exact congrArg (· ++ [Nat.digitChar n]) hzeros
  · rw [padded, padded, Nat.toDigits_of_base_le (by decide) (Nat.le_of_not_lt h),
      List.length_append, List.append_assoc, List.length_singleton]
    congr 2
    omega

/-- The digits of a number that fits are as many as the width. -/
theorem length_padded {width n : Nat} (h : n < 10 ^ (width + 1)) :
    (padded (width + 1) n).length = width + 1 := by
  induction width generalizing n with
  | zero =>
    rw [padded_one (by omega)]
    rfl
  | succ width ih =>
    rw [padded_succ, List.length_append, ih (by omega)]
    rfl

theorem isDigit_of_mem_padded {width n : Nat} {c : Char} (hc : c ∈ padded width n) :
    c.isDigit = true := by
  rcases List.mem_append.1 hc with h | h
  · rw [List.eq_of_mem_replicate h]
    rfl
  · exact Nat.isDigit_of_mem_toDigits (by decide) (by decide) h

/-! ## Order -/

theorem digitChar_lt_iff {m n : Nat} (hm : m < 10) (hn : n < 10) :
    Nat.digitChar m < Nat.digitChar n ↔ m < n := by
  rw [Char.lt_def, UInt32.lt_iff_toNat_lt]
  change (Nat.digitChar m).toNat < (Nat.digitChar n).toNat ↔ m < n
  rw [Nat.toNat_digitChar_of_lt_ten hm, Nat.toNat_digitChar_of_lt_ten hn]
  omega

theorem digitChar_inj {m n : Nat} (hm : m < 10) (hn : n < 10) :
    Nat.digitChar m = Nat.digitChar n ↔ m = n := by
  rw [← Char.toNat_inj, Nat.toNat_digitChar_of_lt_ten hm, Nat.toNat_digitChar_of_lt_ten hn]
  omega

/-- **The order of fixed width.** Texts that begin with numbers of one width are ordered by the
numbers, and for equal numbers by what stands behind them. -/
theorem padded_append_lt_iff {width m n : Nat} (hm : m < 10 ^ (width + 1))
    (hn : n < 10 ^ (width + 1)) (xs ys : List Char) :
    padded (width + 1) m ++ xs < padded (width + 1) n ++ ys ↔ m < n ∨ m = n ∧ xs < ys := by
  induction width generalizing m n xs ys with
  | zero =>
    have hm' : m < 10 := by omega
    have hn' : n < 10 := by omega
    rw [padded_one hm', padded_one hn', List.singleton_append, List.singleton_append,
      List.cons_lt_cons_iff, digitChar_lt_iff hm' hn', digitChar_inj hm' hn']
  | succ width ih =>
    have hm' : m % 10 < 10 := Nat.mod_lt m (by decide)
    have hn' : n % 10 < 10 := Nat.mod_lt n (by decide)
    rw [padded_succ, padded_succ, List.append_assoc, List.append_assoc, ih (by omega) (by omega),
      List.singleton_append, List.singleton_append, List.cons_lt_cons_iff, digitChar_lt_iff hm' hn',
      digitChar_inj hm' hn']
    by_cases hlt : xs < ys
    · simp only [hlt, and_true]
      omega
    · simp only [hlt, and_false, or_false]
      omega

/-! ## Reading -/

/-- A number of some width at the front of a text, and what is left. -/
def field? (width : Nat) (cs : List Char) : Option (Nat × List Char) :=
  let digits := cs.take width
  if digits.length = width ∧ digits.all Char.isDigit then
    some (Nat.ofDigitChars 10 digits 0, cs.drop width)
  else none

theorem ofDigitChars_padded (width n : Nat) : Nat.ofDigitChars 10 (padded width n) 0 = n := by
  have hzeros (k : Nat) : Nat.ofDigitChars 10 (List.replicate k '0') 0 = 0 := by
    induction k with
    | zero => rfl
    | succ k ih => exact ih
  rw [padded, Nat.ofDigitChars_append, hzeros, Nat.ofDigitChars_ten_toDigits]

/-- **A written number** is read back. -/
theorem field?_padded {width n : Nat} (h : n < 10 ^ (width + 1)) (rest : List Char) :
    field? (width + 1) (padded (width + 1) n ++ rest) = some (n, rest) := by
  have hlength := length_padded h
  have hdigits : (padded (width + 1) n).all Char.isDigit = true :=
    List.all_eq_true.2 fun _ => isDigit_of_mem_padded
  rw [field?]
  simp only [List.take_left' hlength, List.drop_left' hlength, hlength, hdigits, and_self, if_true,
    ofDigitChars_padded]

/-! ## Bytes -/

/-- All characters have a code below 128. -/
def Ascii (cs : List Char) : Prop := ∀ c ∈ cs, c.toNat < 128

namespace Ascii

@[simp] theorem nil : Ascii [] := nofun

@[simp] theorem cons_iff {c : Char} {cs : List Char} :
    Ascii (c :: cs) ↔ c.toNat < 128 ∧ Ascii cs :=
  List.forall_mem_cons

@[simp] theorem append_iff {cs ds : List Char} : Ascii (cs ++ ds) ↔ Ascii cs ∧ Ascii ds :=
  List.forall_mem_append

@[simp] theorem padded (width n : Nat) : Ascii (padded width n) := by
  intro c hc
  obtain ⟨-, hle⟩ := Char.isDigit_iff_toNat.1 (isDigit_of_mem_padded hc)
  exact Nat.lt_of_le_of_lt hle (by decide)

end Ascii

/-- The bytes of a text in UTF-8. -/
def utf8 (text : String) : List UInt8 := text.toUTF8.data.toList

theorem utf8_ofList {cs : List Char} (h : Ascii cs) :
    utf8 (String.ofList cs) = cs.map fun c => UInt8.ofNat c.toNat := by
  have hbytes : utf8 (String.ofList cs) = cs.flatMap String.utf8EncodeChar :=
    List.toList_data_toByteArray
  have hsingle : ∀ c ∈ cs, String.utf8EncodeChar c = [UInt8.ofNat c.toNat] := fun c hc =>
    if_pos (Nat.le_of_lt_succ (h c hc))
  rw [hbytes, List.map_eq_flatMap, List.flatMap_def, List.flatMap_def,
    List.map_congr_left hsingle]

/-- The order of bytes is that of the characters. -/
theorem utf8_lt_utf8_iff {cs ds : List Char} (hcs : Ascii cs) (hds : Ascii ds) :
    utf8 (String.ofList cs) < utf8 (String.ofList ds) ↔ cs < ds := by
  rw [utf8_ofList hcs, utf8_ofList hds]
  induction cs generalizing ds with
  | nil =>
    cases ds with
    | nil => exact ⟨fun h => absurd h (List.not_lt_nil _), fun h => absurd h (List.not_lt_nil _)⟩
    | cons d ds => exact ⟨fun _ => List.nil_lt_cons d ds, fun _ => List.nil_lt_cons _ _⟩
  | cons c cs ih =>
    cases ds with
    | nil => exact ⟨fun h => absurd h (List.not_lt_nil _), fun h => absurd h (List.not_lt_nil _)⟩
    | cons d ds =>
      obtain ⟨hc, hcs⟩ := Ascii.cons_iff.1 hcs
      obtain ⟨hd, hds⟩ := Ascii.cons_iff.1 hds
      have hbyte {e : Char} (he : e.toNat < 128) : (UInt8.ofNat e.toNat).toNat = e.toNat :=
        UInt8.toNat_ofNat_of_lt' (Nat.lt_of_lt_of_le he (by decide))
      have hlt : UInt8.ofNat c.toNat < UInt8.ofNat d.toNat ↔ c < d := by
        rw [UInt8.lt_iff_toNat_lt, hbyte hc, hbyte hd, Char.lt_def, UInt32.lt_iff_toNat_lt]
        rfl
      have heq : UInt8.ofNat c.toNat = UInt8.ofNat d.toNat ↔ c = d := by
        rw [← UInt8.toNat_inj, hbyte hc, hbyte hd, Char.toNat_inj]
      rw [List.map_cons, List.map_cons, List.cons_lt_cons_iff, List.cons_lt_cons_iff, hlt, heq,
        ih hcs hds]

end SearchRequest

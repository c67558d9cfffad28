import SearchRequest.Argument.Distance
import SearchRequest.Proofs.Spans

/-!
# The grammar of distances

The check of a distance trims the text and reads it from left to right. Here the accepted texts are
described without trimming and without reading: a text has a core between blanks, and the core is
put together from parts. Both descriptions are the same because each part ends where the next one
begins with a character that cannot belong to it (`Stops`).

* `IsCore` — a text without the blanks at its two ends. There is one core, and it is what trimming
  leaves (`isCore_iff`).
* `SpellsDistance` — the grammar: digits, perhaps a point and digits, blanks, perhaps a unit. What
  counts as a digit is a parameter of it.
* `Argument.distance_grammar` — the accepted texts are those of the grammar whose digits are the
  decimal digits of any script. With the ten ASCII digits the grammar has fewer texts.
-/

namespace SearchRequest

open Argument

/-! ## Blanks at the two ends -/

/-- The core of a text: all of it but the blanks at its two ends. -/
structure IsCore (cs core : List Char) : Prop where
  around : ∃ before after, cs = before ++ (core ++ after) ∧
    (∀ c ∈ before, isBlankChar c = true) ∧ ∀ c ∈ after, isBlankChar c = true
  front : Stops isBlankChar core
  back : Stops isBlankChar core.reverse

/-- Trimming finds the core. -/
theorem isCore_trimChars (cs : List Char) : IsCore cs (trimChars cs) := by
  let after := ((cs.dropWhile isBlankChar).reverse.takeWhile isBlankChar).reverse
  have hrest : trimChars cs ++ after = cs.dropWhile isBlankChar := by
    rw [trimChars, ← List.reverse_append, List.takeWhile_append_dropWhile, List.reverse_reverse]
  refine ⟨⟨cs.takeWhile isBlankChar, after, ?_, fun c hc => List.mem_takeWhile_imp hc,
    fun c hc => List.mem_takeWhile_imp (List.mem_reverse.1 hc)⟩, ?_, ?_⟩
  · rw [hrest, List.takeWhile_append_dropWhile]
  · have hstops := Stops.dropWhile isBlankChar cs
    rw [← hrest] at hstops
    exact hstops.of_append
  · rw [trimChars, List.reverse_reverse]
    exact Stops.dropWhile _ _

/-- A text has one core. -/
theorem IsCore.eq_trimChars {cs core : List Char} (h : IsCore cs core) : core = trimChars cs := by
  obtain ⟨⟨before, after, rfl, hbefore, hafter⟩, hfront, hback⟩ := h
  cases core with
  | nil =>
    refine (trimChars_eq_nil_iff.2 fun c hc => ?_).symm
    exact (List.mem_append.1 hc).elim (hbefore c) (hafter c)
  | cons c rest =>
    have hstops : Stops isBlankChar (c :: rest ++ after) := fun _ hd => hfront _ hd
    have hafter' : ∀ d ∈ after.reverse, isBlankChar d = true :=
      fun d hd => hafter d (List.mem_reverse.1 hd)
    rw [trimChars, hstops.dropWhile_append hbefore, List.reverse_append,
      hback.dropWhile_append hafter', List.reverse_reverse]

theorem isCore_iff {cs core : List Char} : IsCore cs core ↔ core = trimChars cs :=
  ⟨IsCore.eq_trimChars, fun h => h ▸ isCore_trimChars cs⟩

/-- What is not blank is in the core. -/
theorem IsCore.mem_iff {cs core : List Char} (h : IsCore cs core) {c : Char}
    (hc : isBlankChar c = false) : c ∈ cs ↔ c ∈ core := by
  obtain ⟨before, after, rfl, hbefore, hafter⟩ := h.around
  have hnot {blanks : List Char} (hb : ∀ c ∈ blanks, isBlankChar c = true) : c ∉ blanks := by
    intro hmem
    rw [hb c hmem] at hc
    cases hc
  rw [List.mem_append, List.mem_append]
  exact (or_iff_right (hnot hbefore)).trans (or_iff_left (hnot hafter))

/-! ## The grammar -/

/-- Digits, at least one; `digit` says which characters are digits. -/
def Digits (digit : Char → Bool) (cs : List Char) : Prop := cs ≠ [] ∧ ∀ c ∈ cs, digit c = true

/-- The parts of a distance. -/
structure DistanceParts where
  whole : List Char
  /-- the digits behind the point -/
  fraction : Option (List Char)
  gap : List Char
  unit : Option String

namespace DistanceParts

/-- The point and the digits behind it. -/
def fractionChars (p : DistanceParts) : List Char := p.fraction.elim [] ('.' :: ·)

/-- The name of the unit. -/
def unitChars (p : DistanceParts) : List Char := p.unit.elim [] String.toList

/-- The characters of a distance. -/
def chars (p : DistanceParts) : List Char :=
  p.whole ++ (p.fractionChars ++ (p.gap ++ p.unitChars))

/-- The parts are what they should be: digits, blanks, and the name of a unit. -/
structure Grammatical (digit : Char → Bool) (p : DistanceParts) : Prop where
  whole : Digits digit p.whole
  fraction : ∀ digits ∈ p.fraction, Digits digit digits
  gap : ∀ c ∈ p.gap, isBlankChar c = true
  unit : ∀ unit ∈ p.unit, unit ∈ distanceUnits

end DistanceParts

/-- The characters are those of a distance. -/
def SpellsDistance (digit : Char → Bool) (cs : List Char) : Prop :=
  ∃ p : DistanceParts, p.Grammatical digit ∧ p.chars = cs

/-! ## Digits, blanks and units -/

/-- Tables that are apart cover no character both. -/
theorem CodeRange.covers_eq_false {ranges others : List (Nat × Nat)} {c : Char}
    (h : ∀ r ∈ ranges, ∀ s ∈ others, r.2 < s.1 ∨ s.2 < r.1) (hc : covers ranges c = true) :
    covers others c = false := by
  rw [← Bool.not_eq_true, covers_eq_true_iff]
  rintro ⟨s, hs, hlow, hhigh⟩
  obtain ⟨r, hr, hlow', hhigh'⟩ := covers_eq_true_iff.1 hc
  have hapart := h r hr s hs
  omega

theorem isDecimalDigit_of_isBlankChar {c : Char} (h : isBlankChar c = true) :
    isDecimalDigit c = false :=
  CodeRange.covers_eq_false (by decide +kernel) h

theorem isBlankChar_of_isDecimalDigit {c : Char} (h : isDecimalDigit c = true) :
    isBlankChar c = false := by
  refine Bool.eq_false_iff.2 fun hblank => ?_
  rw [isDecimalDigit_of_isBlankChar hblank] at h
  cases h

theorem isDecimalDigit_of_isDigit {c : Char} (h : c.isDigit = true) : isDecimalDigit c = true :=
  CodeRange.covers_eq_true_iff.2 ⟨(0x30, 0x39), List.mem_cons_self, Char.isDigit_iff_toNat.1 h⟩

/-- Code points of the letters that units may be written in. -/
def unitLetters : List (Nat × Nat) := [(0x41, 0x5A), (0x61, 0x7A)]

theorem covers_unitLetters {unit : String} (h : unit ∈ distanceUnits) {c : Char}
    (hc : c ∈ unit.toList) : CodeRange.covers unitLetters c = true := by
  have hall : distanceUnits.all (·.toList.all (CodeRange.covers unitLetters)) = true := by decide
  exact List.all_eq_true.1 (List.all_eq_true.1 hall unit h) c hc

section Letters

variable {c : Char}

theorem isDecimalDigit_of_letter (h : CodeRange.covers unitLetters c = true) :
    isDecimalDigit c = false :=
  CodeRange.covers_eq_false (by decide +kernel) h

theorem isBlankChar_of_letter (h : CodeRange.covers unitLetters c = true) :
    isBlankChar c = false :=
  CodeRange.covers_eq_false (by decide) h

theorem ne_point_of_letter (h : CodeRange.covers unitLetters c = true) : c ≠ '.' := by
  rintro rfl
  cases h

theorem ne_point_of_isBlankChar (h : isBlankChar c = true) : c ≠ '.' := by
  rintro rfl
  cases h

end Letters

/-! ## Reading -/

theorem skipFraction_eq_self {cs : List Char} (h : '.' ∉ cs.head?) : skipFraction cs = cs := by
  fun_cases skipFraction cs with
  | case1 => rfl
  | case2 => exact absurd rfl h
  | case3 => rfl

/-- What is skipped is nothing, or a point and the digits behind it. -/
theorem exists_skipFraction (cs : List Char) :
    ∃ fraction : Option (List Char), (∀ digits ∈ fraction, Digits isDecimalDigit digits) ∧
      fraction.elim [] ('.' :: ·) ++ skipFraction cs = cs := by
  fun_cases skipFraction cs with
  | case1 => exact ⟨none, nofun, rfl⟩
  | case2 rest hdigits =>
    refine ⟨some (rest.takeWhile isDecimalDigit), ?_, ?_⟩
    · rintro _ ⟨⟩
      exact ⟨mt List.isEmpty_iff.2 hdigits, fun c hc => List.mem_takeWhile_imp hc⟩
    · exact congrArg ('.' :: ·) List.takeWhile_append_dropWhile
  | case3 => exact ⟨none, nofun, rfl⟩

theorem isUnitOrNothing_iff {cs : List Char} :
    isUnitOrNothing cs = true ↔ ∃ unit : Option String,
      (∀ u ∈ unit, u ∈ distanceUnits) ∧ unit.elim [] String.toList = cs := by
  rw [isUnitOrNothing, Bool.or_eq_true, List.isEmpty_iff, List.any_eq_true]
  constructor
  · rintro (rfl | ⟨unit, hunit, hcs⟩)
    · exact ⟨none, nofun, rfl⟩
    · refine ⟨some unit, ?_, eq_of_beq hcs⟩
      rintro _ ⟨⟩
      exact hunit
  · rintro ⟨_ | unit, hunit, rfl⟩
    · exact .inl rfl
    · exact .inr ⟨unit, hunit unit rfl, beq_self_eq_true _⟩

namespace DistanceParts.Grammatical

variable {digit : Char → Bool} {p : DistanceParts} {c : Char}

theorem covers_unitChars (h : p.Grammatical digit) (hc : c ∈ p.unitChars) :
    CodeRange.covers unitLetters c = true := by
  rcases hunit : p.unit with _ | unit
  · rw [unitChars, hunit] at hc
    cases hc
  · rw [unitChars, hunit] at hc
    exact covers_unitLetters (h.unit unit hunit) hc

/-- Behind the number there is neither a digit nor a point. -/
theorem of_mem_gap_unit (h : p.Grammatical digit) (hc : c ∈ p.gap ++ p.unitChars) :
    isDecimalDigit c = false ∧ c ≠ '.' := by
  rcases List.mem_append.1 hc with hgap | hunit
  · have hblank := h.gap c hgap
    exact ⟨isDecimalDigit_of_isBlankChar hblank, ne_point_of_isBlankChar hblank⟩
  · have hletter := h.covers_unitChars hunit
    exact ⟨isDecimalDigit_of_letter hletter, ne_point_of_letter hletter⟩

theorem stops_gap_unit (h : p.Grammatical digit) : Stops isDecimalDigit (p.gap ++ p.unitChars) :=
  Stops.of_forall fun _ hc => (h.of_mem_gap_unit hc).1

theorem stops_fraction (h : p.Grammatical digit) :
    Stops isDecimalDigit (p.fractionChars ++ (p.gap ++ p.unitChars)) := by
  refine .append ?_ h.stops_gap_unit
  rw [fractionChars]
  rcases p.fraction with _ | digits
  · nofun
  · rintro _ ⟨⟩
    decide

/-- The fraction is skipped, and nothing else. -/
theorem skipFraction_append (h : p.Grammatical isDecimalDigit) :
    skipFraction (p.fractionChars ++ (p.gap ++ p.unitChars)) = p.gap ++ p.unitChars := by
  rcases hfraction : p.fraction with _ | digits
  · rw [fractionChars, hfraction]
    refine skipFraction_eq_self fun hc => ?_
    exact (h.of_mem_gap_unit (List.mem_of_mem_head? hc)).2 rfl
  · obtain ⟨hne, hdigits⟩ := h.fraction digits hfraction
    rw [fractionChars, hfraction]
    change skipFraction ('.' :: (digits ++ (p.gap ++ p.unitChars))) = _
    rw [skipFraction, h.stops_gap_unit.takeWhile_append hdigits,
      h.stops_gap_unit.dropWhile_append hdigits, if_neg (mt List.isEmpty_iff.1 hne)]

theorem isDistanceChars_chars (h : p.Grammatical isDecimalDigit) :
    isDistanceChars p.chars = true := by
  have hwhole := h.whole.2
  have hstops : Stops isBlankChar p.unitChars :=
    Stops.of_forall fun _ hc => isBlankChar_of_letter (h.covers_unitChars hc)
  have hunit : isUnitOrNothing p.unitChars = true := isUnitOrNothing_iff.2 ⟨p.unit, h.unit, rfl⟩
  -- part by part, from the left
  rw [isDistanceChars, chars, h.stops_fraction.takeWhile_append hwhole,
    h.stops_fraction.dropWhile_append hwhole, h.skipFraction_append, hstops.dropWhile_append h.gap,
    hunit, Bool.and_true, Bool.not_eq_true', List.isEmpty_eq_false_iff]
  exact h.whole.1

/-- The characters that are decimal digits are those of the number. -/
theorem digit_of_mem_chars (h : p.Grammatical digit) (hc : c ∈ p.chars)
    (hdecimal : isDecimalDigit c = true) : digit c = true := by
  rcases List.mem_append.1 hc with hwhole | hc
  · exact h.whole.2 c hwhole
  rcases List.mem_append.1 hc with hfraction | hc
  · rw [fractionChars] at hfraction
    rcases hdigits : p.fraction with _ | digits
    · rw [hdigits] at hfraction
      cases hfraction
    · rw [hdigits] at hfraction
      rcases List.mem_cons.1 hfraction with rfl | hmem
      · cases hdecimal
      · exact (h.fraction digits hdigits).2 c hmem
  · rw [(h.of_mem_gap_unit hc).1] at hdecimal
    cases hdecimal

/-- Digits may be taken for digits of another kind. -/
theorem digits_imp {digit' : Char → Bool} (h : p.Grammatical digit)
    (himp : ∀ c ∈ p.chars, digit c = true → digit' c = true) : p.Grammatical digit' where
  whole := ⟨h.whole.1, fun c hc => himp c (List.mem_append_left _ hc) (h.whole.2 c hc)⟩
  fraction := by
    intro digits hdigits
    obtain ⟨hne, hall⟩ := h.fraction digits hdigits
    refine ⟨hne, fun c hc => himp c ?_ (hall c hc)⟩
    refine List.mem_append_right _ (List.mem_append_left _ ?_)
    rw [fractionChars, show p.fraction = some digits from hdigits]
    exact List.mem_cons_of_mem _ hc
  gap := h.gap
  unit := h.unit

end DistanceParts.Grammatical

/-- Characters are read as a distance exactly if they are one. -/
theorem isDistanceChars_iff {cs : List Char} :
    isDistanceChars cs = true ↔ SpellsDistance isDecimalDigit cs := by
  constructor
  · intro h
    obtain ⟨hwhole, hunit⟩ := Bool.and_eq_true_iff.1 h
    rw [Bool.not_eq_true', List.isEmpty_eq_false_iff] at hwhole
    obtain ⟨fraction, hfraction, hrest⟩ := exists_skipFraction (cs.dropWhile isDecimalDigit)
    obtain ⟨unit, hunits, hunit⟩ := isUnitOrNothing_iff.1 hunit
    let gap := (skipFraction (cs.dropWhile isDecimalDigit)).takeWhile isBlankChar
    refine ⟨⟨cs.takeWhile isDecimalDigit, fraction, gap, unit⟩, ?_, ?_⟩
    · exact ⟨⟨hwhole, fun c hc => List.mem_takeWhile_imp hc⟩, hfraction,
        fun c hc => List.mem_takeWhile_imp hc, hunits⟩
    · rw [DistanceParts.chars, DistanceParts.fractionChars, DistanceParts.unitChars, hunit,
        List.takeWhile_append_dropWhile, hrest, List.takeWhile_append_dropWhile]
  · rintro ⟨p, hp, rfl⟩
    exact hp.isDistanceChars_chars

/-- Distances in ASCII digits are the distances without other decimal digits. -/
theorem spellsDistance_isDigit_iff {cs : List Char} :
    SpellsDistance Char.isDigit cs ↔
      SpellsDistance isDecimalDigit cs ∧ ∀ c ∈ cs, isDecimalDigit c = true → c.isDigit = true := by
  constructor
  · rintro ⟨p, hp, rfl⟩
    exact ⟨⟨p, hp.digits_imp fun _ _ => isDecimalDigit_of_isDigit, rfl⟩,
      fun _ => hp.digit_of_mem_chars⟩
  · rintro ⟨⟨p, hp, rfl⟩, hdigits⟩
    exact ⟨p, hp.digits_imp hdigits, rfl⟩

namespace Argument

theorem isDistance_iff {text : String} :
    isDistance text = true ↔
      ∃ core, IsCore text.toList core ∧ SpellsDistance isDecimalDigit core := by
  rw [isDistance, isDistanceChars_iff]
  constructor
  · exact fun h => ⟨_, isCore_trimChars _, h⟩
  · rintro ⟨core, hcore, h⟩
    rwa [← hcore.eq_trimChars]

/-- **The texts of distances.** A text is accepted exactly if its core is a distance, written with
the decimal digits of any script. The texts of the grammar with ASCII digits are accepted too, and
they are those of the accepted ones in which no decimal digit is from another script. Any other text
is rejected as an invalid distance. -/
theorem distance_grammar (given field context : String) :
    (distance given field context = .ok () ↔
        ∃ core, IsCore given.toList core ∧ SpellsDistance isDecimalDigit core) ∧
      ((∃ core, IsCore given.toList core ∧ SpellsDistance Char.isDigit core) ↔
        distance given field context = .ok () ∧
          ∀ c ∈ given.toList, isDecimalDigit c = true → c.isDigit = true) ∧
      (distance given field context = .ok () ∨
        ∃ r, distance given field context = .error r ∧ r.code = .invalidDistance ∧
          r = (Fault.distanceInvalid given).reject field context) := by
  have hok : distance given field context = .ok () ↔
      ∃ core, IsCore given.toList core ∧ SpellsDistance isDecimalDigit core :=
    distance_eq_ok_iff.trans isDistance_iff
  refine ⟨hok, ?_, ?_⟩
  · rw [hok]
    constructor
    · rintro ⟨core, hcore, h⟩
      obtain ⟨hspells, hdigits⟩ := spellsDistance_isDigit_iff.1 h
      refine ⟨⟨core, hcore, hspells⟩, fun c hc hdecimal => hdigits c ?_ hdecimal⟩
      exact (hcore.mem_iff (isBlankChar_of_isDecimalDigit hdecimal)).1 hc
    · rintro ⟨⟨core, hcore, hspells⟩, hdigits⟩
      refine ⟨core, hcore, spellsDistance_isDigit_iff.2 ⟨hspells, fun c hc hdecimal => ?_⟩⟩
      exact hdigits c ((hcore.mem_iff (isBlankChar_of_isDecimalDigit hdecimal)).2 hc) hdecimal
  · rcases hd : distance given field context with r | _
    · obtain ⟨-, rfl⟩ := require_eq_error_iff.1 hd
      exact .inr ⟨_, rfl, rfl, rfl⟩
    · exact .inl rfl

/-- A text with the Arabic digit three is accepted, but is no distance in ASCII digits. -/
theorem distance_of_other_script :
    distance "\u0663km" "location" "geo_distance" = .ok () ∧
      ¬ ∃ core, IsCore "\u0663km".toList core ∧ SpellsDistance Char.isDigit core := by
  refine ⟨distance_eq_ok_iff.2 (by decide), ?_⟩
  rintro ⟨core, hcore, h⟩
  have hmem : '\u0663' ∈ core := (hcore.mem_iff (by decide)).1 (by decide)
  have hdigit := (spellsDistance_isDigit_iff.1 h).2 _ hmem (by decide)
  cases hdigit

end Argument

end SearchRequest

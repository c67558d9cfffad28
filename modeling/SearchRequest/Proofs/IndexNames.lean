import SearchRequest.Argument.IndexName
import SearchRequest.Proofs.Run

/-!
# The grammar of index names

The check of an index name looks at its length first, and then goes through a list of rules up to
one that the name breaks. Here the names that pass are described without an order of checks: by
their bytes, by their characters, and by what they may not be.

* `IsIndexName` — the grammar, with its characters listed one by one.
* `IndexNameFault.Broken` — what it is to break a rule. A name that is short enough follows the
  grammar exactly if it breaks none (`isIndexName_iff`).
* `Argument.indexName_grammar` — the names that are accepted, and what the others are rejected for.
-/

namespace SearchRequest

open Argument

/-! ## The grammar -/

/-- The characters of index names: the lower-case ASCII letters, the ASCII digits, three marks. -/
def indexNameAlphabet : List Char := "abcdefghijklmnopqrstuvwxyz0123456789._-".toList

/-- The grammar of index names. A plus sign in front needs no mention: it is not in the alphabet. -/
structure IsIndexName (name : String) : Prop where
  nonempty : 1 ≤ name.utf8ByteSize
  short : name.utf8ByteSize ≤ 255
  alphabet : ∀ c ∈ name.toList, c ∈ indexNameAlphabet
  front : ∀ c ∈ name.toList.head?, c ≠ '-' ∧ c ≠ '_'
  notDots : name ≠ "." ∧ name ≠ ".."

theorem le_of_isIndexNameChar {c : Char} (h : isIndexNameChar c = true) : c ≤ 'z' := by
  simp only [isIndexNameChar, Bool.or_eq_true, Bool.and_eq_true, decide_eq_true_eq,
    beq_iff_eq] at h
  rcases h with (((⟨-, hz⟩ | ⟨-, h9⟩) | rfl) | rfl) | rfl
  · exact hz
  · exact Char.le_trans h9 (by decide)
  · decide
  · decide
  · decide

/-- The characters that pass are those of the alphabet. -/
theorem isIndexNameChar_iff {c : Char} : isIndexNameChar c = true ↔ c ∈ indexNameAlphabet := by
  constructor
  · intro h
    have hsmall : c.toNat < 123 := Nat.lt_succ_of_le (le_of_isIndexNameChar h)
    have hall : ∀ n < 123, isIndexNameChar (Char.ofNat n) = true →
        Char.ofNat n ∈ indexNameAlphabet := by decide
    have hc := hall c.toNat hsmall
    rw [Char.ofNat_toNat] at hc
    exact hc h
  · have hall : indexNameAlphabet.all isIndexNameChar = true := by decide
    exact List.all_eq_true.1 hall c

/-! ## The rules -/

namespace IndexNameFault

/-- The rules, in the order in which a name is asked for them. -/
def all : List IndexNameFault := [empty, dots, leadingMark, forbiddenCharacter]

/-- The name breaks the rule. -/
def Broken (name : String) : IndexNameFault → Prop
  | empty => name = ""
  | dots => name = "." ∨ name = ".."
  | leadingMark => ∃ c ∈ name.toList.head?, c = '-' ∨ c = '_' ∨ c = '+'
  | forbiddenCharacter => ∃ c ∈ name.toList, c ∉ indexNameAlphabet

instance (name : String) : DecidablePred (Broken name)
  | empty => inferInstanceAs (Decidable (name = ""))
  | dots => inferInstanceAs (Decidable (name = "." ∨ name = ".."))
  | leadingMark =>
    inferInstanceAs (Decidable (∃ c ∈ name.toList.head?, c = '-' ∨ c = '_' ∨ c = '+'))
  | forbiddenCharacter =>
    inferInstanceAs (Decidable (∃ c ∈ name.toList, c ∉ indexNameAlphabet))

theorem mem_all (rule : IndexNameFault) : rule ∈ all := by
  cases rule <;> decide

/-- The first rule that the name breaks. -/
def first? (name : String) : Option IndexNameFault := all.find? fun rule => rule.Broken name

theorem first?_eq (name : String) :
    first? name =
      if Broken name .empty then some .empty else if Broken name .dots then some .dots
      else if Broken name .leadingMark then some .leadingMark
      else if Broken name .forbiddenCharacter then some .forbiddenCharacter else none := by
  have hcons {rule : IndexNameFault} {rest : List IndexNameFault} :
      (rule :: rest).find? (fun rule => decide (Broken name rule)) =
        if Broken name rule then some rule
        else rest.find? fun rule => decide (Broken name rule) := by
    by_cases h : Broken name rule <;> simp [h]
  rw [first?, all, hcons, hcons, hcons, hcons, List.find?_nil]

end IndexNameFault

open IndexNameFault (Broken)

/-! ## The check -/

/-- The rule that is reported is the first one that is broken. -/
theorem Argument.indexNameFault?_eq_first? (name : String) :
    indexNameFault? name = IndexNameFault.first? name := by
  have hempty : Broken name .empty ↔ name.toList = [] := String.toList_eq_nil_iff.symm
  have hdots : Broken name .dots ↔ name.toList = ['.'] ∨ name.toList = ['.', '.'] :=
    or_congr (@String.toList_inj name ".").symm (@String.toList_inj name "..").symm
  have hfront : Broken name .leadingMark ↔ ∃ c ∈ name.toList.head?, isLeadingMark c = true := by
    simp [Broken, isLeadingMark, or_assoc]
  have hchars : Broken name .forbiddenCharacter ↔ ¬ name.toList.all isIndexNameChar = true := by
    simp [Broken, isIndexNameChar_iff]
  rw [indexNameFault?, IndexNameFault.first?_eq]
  simp only [hempty, hdots, hfront, hchars]
  generalize name.toList = cs
  split
  next => rfl
  next => rfl
  next => rfl
  next first rest h h' =>
    have hnot : ¬ (first :: rest = ['.'] ∨ first :: rest = ['.', '.']) := by simpa using ⟨h, h'⟩
    have hhead : (∃ c ∈ (first :: rest).head?, isLeadingMark c = true) ↔
        isLeadingMark first = true := by simp
    simp only [List.cons_ne_nil, hnot, if_false, hhead, ite_not]

/-- A name follows the grammar if it is short enough and breaks no rule. -/
theorem isIndexName_iff {name : String} :
    IsIndexName name ↔ name.utf8ByteSize ≤ 255 ∧ ∀ rule, ¬ Broken name rule := by
  constructor
  · intro h
    refine ⟨h.short, fun rule hrule => ?_⟩
    cases rule with
    | empty =>
      obtain rfl := hrule
      exact absurd h.nonempty (by decide)
    | dots => exact hrule.elim h.notDots.1 h.notDots.2
    | leadingMark =>
      obtain ⟨c, hc, hmark⟩ := hrule
      have hplus : c ≠ '+' := by
        rintro rfl
        exact absurd (h.alphabet _ (List.mem_of_mem_head? hc)) (by decide)
      rcases hmark with hmark | hmark | hmark
      · exact (h.front c hc).1 hmark
      · exact (h.front c hc).2 hmark
      · exact hplus hmark
    | forbiddenCharacter =>
      obtain ⟨c, hc, hnot⟩ := hrule
      exact hnot (h.alphabet c hc)
  · rintro ⟨hshort, hrules⟩
    refine ⟨?_, hshort, fun c hc => ?_, fun c hc => ⟨fun hm => ?_, fun hm => ?_⟩,
      not_or.1 (hrules .dots)⟩
    · exact Nat.one_le_iff_ne_zero.2 (mt String.utf8ByteSize_eq_zero_iff.1 (hrules .empty))
    · exact Decidable.byContradiction fun hnot => hrules .forbiddenCharacter ⟨c, hc, hnot⟩
    · exact hrules .leadingMark ⟨c, hc, .inl hm⟩
    · exact hrules .leadingMark ⟨c, hc, .inr (.inl hm)⟩

namespace Argument

/-- The outcomes of the check: the name is too long, or breaks a rule, or follows the grammar. -/
theorem indexName_cases (name : String) :
    (255 < name.utf8ByteSize ∧
        indexName name = .error (Fault.indexNameTooLong.reject "index" "index")) ∨
      (name.utf8ByteSize ≤ 255 ∧ ¬ IsIndexName name ∧
        ∃ rule, IndexNameFault.first? name = some rule ∧
          indexName name =
            .error ((Fault.indexNameInvalid name rule).reject "index" "index")) ∨
      IsIndexName name ∧ indexName name = .ok () := by
  by_cases hlong : 255 < name.utf8ByteSize
  · refine .inl ⟨hlong, Checked.bind_eq_error_iff.2 (.inl (require_eq_error_iff.2 ⟨?_, rfl⟩))⟩
    exact decide_eq_false (Nat.not_le.2 hlong)
  · have hshort : name.utf8ByteSize ≤ 255 := Nat.not_lt.1 hlong
    have hpass : require (name.utf8ByteSize ≤ maxIndexNameBytes) .indexNameTooLong "index" "index" =
        .ok () := require_eq_ok_iff.2 (decide_eq_true hshort)
    rw [indexName, hpass, indexNameFault?_eq_first?]
    rcases hfirst : IndexNameFault.first? name with _ | rule
    · have hnone : ∀ rule, ¬ Broken name rule := fun rule => by
        simpa using List.find?_eq_none.1 hfirst rule rule.mem_all
      exact .inr (.inr ⟨isIndexName_iff.2 ⟨hshort, hnone⟩, rfl⟩)
    · have hbroken := List.find?_some (p := fun rule => decide (Broken name rule)) hfirst
      have hnot : ¬ IsIndexName name :=
        fun h => (isIndexName_iff.1 h).2 rule (of_decide_eq_true hbroken)
      exact .inr (.inl ⟨hshort, hnot, rule, rfl, rfl⟩)

/-- **The names of indices.** A name is accepted exactly if it follows the grammar. A name of more
than 255 bytes is rejected for its length, whatever else is wrong with it; any other name that does
not follow the grammar is rejected as invalid, for the first rule that it breaks. -/
theorem indexName_grammar (name : String) :
    let outcome := indexName name
    (outcome = .ok () ↔ IsIndexName name) ∧
      ((∃ r, outcome = .error r ∧ r.code = .indexNameTooLong) ↔ 255 < name.utf8ByteSize) ∧
      ((∃ r, outcome = .error r ∧ r.code = .invalidIndexName) ↔
        name.utf8ByteSize ≤ 255 ∧ ¬ IsIndexName name) ∧
      ∀ r, outcome = .error r →
        r = Fault.indexNameTooLong.reject "index" "index" ∨
          ∃ rule, IndexNameFault.first? name = some rule ∧
            r = (Fault.indexNameInvalid name rule).reject "index" "index" := by
  intro outcome
  rcases indexName_cases name with
    ⟨hlong, h⟩ | ⟨hshort, hnot, rule, hfirst, h⟩ | ⟨hname, h⟩
  all_goals change outcome = _ at h
  · have hnot : ¬ IsIndexName name := fun hname => absurd hname.short (Nat.not_le.2 hlong)
    simp [h, hnot, hlong, Fault.reject, Fault.code]
  · simp [h, hnot, hshort, hfirst, Fault.reject, Fault.code]
  · simp [h, hname, hname.short]

/-- A line end is a character like any other, behind a name too. -/
example : indexName "logs\n" =
    .error ((Fault.indexNameInvalid "logs\n" .forbiddenCharacter).reject "index" "index") := rfl

end Argument

end SearchRequest

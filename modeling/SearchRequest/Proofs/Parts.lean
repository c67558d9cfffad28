import SearchRequest.Proofs.Appending
import SearchRequest.Proofs.Wrapping

/-!
# Parts of a document

A document has ten parts, and every step but a reset works on one of them: it looks at no other
part, and leaves the others as they are. `Edit.outcome_withPart` says so for all edits at once. Two
edits that work on different parts can therefore change places (`Edit.Commute.of_part_ne`).

Edits of the query all work on the same part. Those that install the bool query can change places
nevertheless, unless both add clauses to the same section or both set the bound on optional clauses:
what they have in common, the installation, does not depend on which of them comes first
(`Edit.Commute.of_installsBool`).
-/

namespace SearchRequest

/-- A part of a document. -/
inductive Part where
  | offset
  | size
  | query
  | sort
  | source
  | aggregations
  | highlight
  | trackTotalHits
  | minScore
  | searchAfter
deriving DecidableEq, Repr

/-! ## One part from another document -/

namespace Document

/-- The document with one part as it is in another document. -/
def withPart (d : Document) (p : Part) (source : Document) : Document :=
  match p with
  | .offset => { d with offset := source.offset }
  | .size => { d with size := source.size }
  | .query => { d with query := source.query }
  | .sort => { d with sort := source.sort }
  | .source => { d with source := source.source }
  | .aggregations => { d with aggregations := source.aggregations }
  | .highlight => { d with highlight := source.highlight }
  | .trackTotalHits => { d with trackTotalHits := source.trackTotalHits }
  | .minScore => { d with minScore := source.minScore }
  | .searchAfter => { d with searchAfter := source.searchAfter }

@[simp] theorem withPart_self (d : Document) (p : Part) : d.withPart p d = d := by
  cases p <;> rfl

/-- What becomes of one part is not seen in another one. -/
theorem withPart_withPart_of_ne {p q : Part} (h : p ≠ q) (d e : Document) :
    (d.withPart p e).withPart q d = d.withPart p e := by
  cases p <;> cases q <;> first | rfl | exact absurd rfl h

/-- Different parts can be taken over in any order. -/
theorem withPart_comm {p q : Part} (h : p ≠ q) (d e f : Document) :
    (d.withPart p e).withPart q f = (d.withPart q f).withPart p e := by
  cases p <;> cases q <;> first | rfl | exact absurd rfl h

end Document

/-! ## What edits work on -/

namespace Edit

/-- The part of the document that an edit works on. A reset works on all of them. -/
def part? : Edit → Option Part
  | append .. | installBool | setMinimum _ | wrap _ | replaceQuery _ => some .query
  | reset => none
  | setOffset _ => some .offset
  | setSize _ => some .size
  | addSort _ => some .sort
  | setSource _ => some .source
  | setHighlight _ | addHighlight .. => some .highlight
  | setTrackTotalHits _ => some .trackTotalHits
  | setMinScore _ => some .minScore
  | setSearchAfter _ => some .searchAfter
  | attach .. | attachUnder .. => some .aggregations

/-- The document after an edit, which is the one before if the edit is rejected, and the rejection
if there is one. -/
def outcome (d : Document) (e : Edit) : Document × Option Rejection :=
  match e.apply d with
  | .ok d' => (d', none)
  | .error r => (d, some r)

/-- **Edits work on one part**: an edit does to a part what it does to it in the document that the
part comes from, and it is rejected for what stands there or not at all. -/
theorem outcome_withPart {e : Edit} {p : Part} (h : e.part? = some p) (d source : Document) :
    e.outcome (d.withPart p source) =
      (d.withPart p (e.outcome source).1, (e.outcome source).2) := by
  cases e with
  | reset => cases h
  | attachUnder parent name spec =>
    obtain rfl := Option.some.inj h
    rw [outcome, outcome, apply, apply, Document.attachUnder?, Document.attachUnder?]
    have hfound : (d.withPart .aggregations source).aggregation? parent =
        source.aggregation? parent := rfl
    rw [hfound]
    rcases source.aggregation? parent with _ | spec' <;> rfl
  | _ =>
    obtain rfl := Option.some.inj h
    rfl

/-- The part that an edit works on, with the others as they were. -/
theorem outcome_eq_withPart {e : Edit} {p : Part} (h : e.part? = some p) (d : Document) :
    (e.outcome d).1 = d.withPart p (e.outcome d).1 := by
  have hself := outcome_withPart h d d
  rw [Document.withPart_self] at hself
  exact congrArg Prod.fst hself

/-! ## Edits that can change places -/

/-- Whichever of the two edits comes first, the document is the same after both, and each of them is
rejected, or not, as it would be without the other. -/
def Commute (e f : Edit) : Prop :=
  ∀ d, (f.outcome (e.outcome d).1).1 = (e.outcome (f.outcome d).1).1 ∧
    (f.outcome (e.outcome d).1).2 = (f.outcome d).2 ∧
    (e.outcome (f.outcome d).1).2 = (e.outcome d).2

/-- An edit finds its part as it was, after an edit of another part. -/
theorem outcome_of_part_ne {e f : Edit} {p q : Part} (he : e.part? = some p) (hf : f.part? = some q)
    (h : p ≠ q) (d : Document) :
    f.outcome (e.outcome d).1 =
      ((d.withPart p (e.outcome d).1).withPart q (f.outcome d).1, (f.outcome d).2) := by
  have hother : (d.withPart p (e.outcome d).1).withPart q d = d.withPart p (e.outcome d).1 :=
    Document.withPart_withPart_of_ne h d _
  rw [← outcome_withPart hf, hother, ← outcome_eq_withPart he d]

/-- **Edits of different parts** can change places. -/
theorem Commute.of_part_ne {e f : Edit} {p q : Part} (he : e.part? = some p) (hf : f.part? = some q)
    (h : p ≠ q) : e.Commute f := by
  intro d
  rw [outcome_of_part_ne he hf h d, outcome_of_part_ne hf he h.symm d]
  exact ⟨Document.withPart_comm h _ _ _, rfl, rfl⟩

end Edit

/-! ## Edits that install the bool query -/

namespace BoolQuery

variable {C : Type}

/-- With all sections installed, no value waits. -/
theorem settled_of_get {b : BoolQuery C} (h : ∀ s, ∃ cs, b.get s = some cs) :
    b.settled = b.extra := by
  refine List.filter_eq_self.2 fun m _ => ?_
  have hnone : b.waitsUnder m.1 = false := by
    rw [waitsUnder, List.any_eq_false]
    intro s _
    obtain ⟨cs, hs⟩ := h s
    rw [hs]
    simp
  rw [hnone]
  rfl

end BoolQuery

namespace Edit

/-- The bound on optional clauses that the edit sets. -/
def bound? : Edit → Option Value
  | setMinimum count => some (.nat count)
  | _ => none

/-- What an edit that installs the bool query makes of it. -/
structure Installs (e : Edit) (b b' : BoolQuery Clause) : Prop where
  get (s : Section) : b'.get s = some (b.upcoming .raw s ++ e.added s)
  minimum : b'.minimumShouldMatch = e.bound?.or b.minimumShouldMatch
  extra : b'.extra = b.settled

/-- **The installation** is the same for all edits, and what else they do can be told apart. -/
theorem installs_onQuery {e : Edit} (he : e.installsBool = true) (q : QueryRoot Clause) :
    ∃ b, e.onQuery q = { q with bool := some b } ∧ e.Installs (q.bool.getD {}) b := by
  have hinstalled : (q.ensuredBool Clause.raw).minimumShouldMatch =
      (q.bool.getD {}).minimumShouldMatch ∧
      (q.ensuredBool Clause.raw).extra = (q.bool.getD {}).settled :=
    ⟨BoolQuery.minimumShouldMatch_installAll _ _, BoolQuery.extra_installAll _ _⟩
  obtain ⟨b', hb', hget⟩ := e.get_onQuery q he
  cases e with
  | append s cs =>
    obtain rfl := Option.some.inj hb'
    have hgains := (q.bool.getD {}).gains_append Clause.raw s cs
    exact ⟨_, rfl, hget, hgains.minimum, hgains.extra⟩
  | installBool =>
    obtain rfl := Option.some.inj hb'
    exact ⟨_, rfl, hget, hinstalled.1, hinstalled.2⟩
  | setMinimum count =>
    obtain rfl := Option.some.inj hb'
    exact ⟨_, rfl, hget, rfl, hinstalled.2⟩
  | _ => cases he

/-- What is installed determines the bool query. -/
theorem Installs.installs {e f : Edit} {b b₁ b₂ : BoolQuery Clause} (h₁ : e.Installs b b₁)
    (h₂ : f.Installs b₁ b₂) :
    (∀ s, b₂.get s = some (b.upcoming .raw s ++ e.added s ++ f.added s)) ∧
      b₂.minimumShouldMatch = f.bound?.or (e.bound?.or b.minimumShouldMatch) ∧
      b₂.extra = b.settled := by
  refine ⟨fun s => ?_, by rw [h₂.minimum, h₁.minimum], ?_⟩
  · rw [h₂.get s, BoolQuery.upcoming_of_get (h₁.get s)]
  · rw [h₂.extra, BoolQuery.settled_of_get fun s => ⟨_, h₁.get s⟩, h₁.extra]

/-- The edits add to different sections, if they both add clauses, and one of them at most sets the
bound. -/
def Apart (e f : Edit) : Prop :=
  (∀ s, e.added s = [] ∨ f.added s = []) ∧ (e.bound? = none ∨ f.bound? = none)

theorem onQuery_comm {e f : Edit} (he : e.installsBool = true) (hf : f.installsBool = true)
    (h : e.Apart f) (q : QueryRoot Clause) : f.onQuery (e.onQuery q) = e.onQuery (f.onQuery q) := by
  obtain ⟨b₁, hb₁, h₁⟩ := installs_onQuery he q
  obtain ⟨b₂, hb₂, h₂⟩ := installs_onQuery hf (e.onQuery q)
  obtain ⟨c₁, hc₁, k₁⟩ := installs_onQuery hf q
  obtain ⟨c₂, hc₂, k₂⟩ := installs_onQuery he (f.onQuery q)
  rw [hb₂, hc₂]
  rw [hb₁] at h₂ ⊢
  rw [hc₁] at k₂ ⊢
  obtain ⟨hget, hmin, hextra⟩ := h₁.installs h₂
  obtain ⟨kget, kmin, kextra⟩ := k₁.installs k₂
  have hsame : b₂ = c₂ := by
    refine BoolQuery.ext_get (fun s => ?_) ?_ (hextra.trans kextra.symm)
    · rw [hget, kget]
      rcases h.1 s with hs | hs <;> rw [hs] <;> simp
    · rw [hmin, kmin]
      rcases h.2 with hn | hn <;> rw [hn] <;> rfl
  rw [hsame]

/-- An edit that installs the bool query is done, and works on the query alone. -/
theorem outcome_of_installsBool {e : Edit} (he : e.installsBool = true) (d : Document) :
    e.outcome d = ({ d with query := some (e.onQuery (d.query.getD {})) }, none) := by
  cases e with
  | append | installBool | setMinimum => rfl
  | _ => cases he

/-- **Edits of the bool query** can change places when they are apart. -/
theorem Commute.of_installsBool {e f : Edit} (he : e.installsBool = true)
    (hf : f.installsBool = true) (h : e.Apart f) : e.Commute f := by
  intro d
  rw [outcome_of_installsBool he d, outcome_of_installsBool hf d, outcome_of_installsBool he,
    outcome_of_installsBool hf, Option.getD_some, Option.getD_some, onQuery_comm he hf h]
  exact ⟨rfl, rfl, rfl⟩

end Edit

end SearchRequest

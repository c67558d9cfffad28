import SearchRequest.Proofs.Asking
import SearchRequest.Proofs.KeysApart

/-!
# Installing the bool query

Calls that add clauses, merges and embeddings among them, install the bool query with its four
sections first. So do the call that sets the bound on optional clauses and the one that asks for
nothing else. No other call looks at the bool query.

* `Step.installsBool` — these calls. Whether a step is one of them can be read off the edit that it
  asks for, see `Step.installsBool_of_edit`.
* `Edit.get_onQuery` — after such an edit all four sections are there, each with the clauses that it
  had before, or that waited for it, and those that the edit adds.
* `Edit.complete_onQuery` — no value waits for a section any more.
-/

namespace SearchRequest

/-! ## Calls that install -/

/-- The edit works on the bool query, which is installed for it. -/
def Edit.installsBool : Edit → Bool
  | append .. | installBool | setMinimum _ => true
  | _ => false

/-- The step works on the bool query, which is installed for it: it adds a clause or those of a
callback, sets the bound on optional clauses, or asks for the bool query itself. -/
def Step.installsBool : Step → Bool
  | clause _ | should _ | mustNot _ | embed .. | minimumShouldMatch _ | ensureBoolQuery => true
  | _ => false

/-- A step installs the bool query when its edit does. -/
theorem Step.installsBool_of_edit {config : Config} {s : Step} {e : Edit}
    (h : s.edit config = .ok e) : s.installsBool = e.installsBool := by
  cases asks_of_edit h <;> rfl

/-! ## What is installed -/

namespace BoolQuery

variable {C : Type}

/-- All four sections are installed, and no value waits for one. -/
def Complete (b : BoolQuery C) : Prop := ∀ s, (b.get s).isSome = true ∧ s.text ∉ b.extra.keys

/-- With keys apart, no value waits for an installed section. -/
theorem Complete.of_isSome {b : BoolQuery C} (h : b.KeysApart)
    (hs : ∀ s, (b.get s).isSome = true) : b.Complete := by
  intro s
  obtain ⟨cs, hg⟩ := Option.isSome_iff_exists.1 (hs s)
  exact ⟨hs s, h.installed hg⟩

end BoolQuery

/-- The bool query that an edit works on has all its sections. -/
theorem QueryRoot.get_ensuredBool {C : Type} (raw : Value → C) (q : QueryRoot C) (s : Section) :
    (q.ensuredBool raw).get s = some ((q.bool.getD {}).upcoming raw s) :=
  BoolQuery.get_installAll raw _ s

namespace Edit

/-- The clauses that the edit adds to a section. -/
def added : Edit → Section → List Clause
  | append t cs, s => if s = t then cs else []
  | _, _ => []

/-- **Edits of the bool query install it**: each section is there, with the clauses that it had or
that waited for it, and behind them those that the edit adds. -/
theorem get_onQuery {e : Edit} (q : QueryRoot Clause) (he : e.installsBool = true) :
    ∃ b, (e.onQuery q).bool = some b ∧
      ∀ s, b.get s = some ((q.bool.getD {}).upcoming .raw s ++ e.added s) := by
  have hget := q.get_ensuredBool Clause.raw
  cases e with
  | append t cs =>
    refine ⟨_, rfl, fun s => ?_⟩
    have hup : (q.ensuredBool Clause.raw).upcoming .raw t = (q.bool.getD {}).upcoming .raw t :=
      BoolQuery.upcoming_of_get (hget t)
    rw [BoolQuery.get_append, hup, hget, added]
    by_cases h : s = t
    · rw [if_pos h, if_pos h, h]
    · rw [if_neg h, if_neg h, List.append_nil]
  | installBool =>
    refine ⟨_, rfl, fun s => ?_⟩
    exact (hget s).trans (congrArg some (List.append_nil _).symm)
  | setMinimum count =>
    refine ⟨_, rfl, fun s => ?_⟩
    have hs := (hget s).trans (congrArg some (List.append_nil _).symm)
    cases s <;> exact hs
  | _ => cases he

/-- The keys of a query stay apart under an edit of the bool query. -/
theorem keysApart_onQuery {e : Edit} {q : QueryRoot Clause} (he : e.installsBool = true)
    (hq : q.KeysApart) : (e.onQuery q).KeysApart := by
  cases e with
  | append s cs => exact hq.editBool fun b hb => hb.append s cs
  | installBool => exact hq.editBool fun b hb => hb
  | setMinimum count => exact hq.editBool fun b hb => hb.setMinimum _
  | _ => cases he

/-- With keys apart, no value waits for a section after an edit of the bool query. -/
theorem complete_onQuery {e : Edit} {q : QueryRoot Clause} (he : e.installsBool = true)
    (hq : q.KeysApart) : ∃ b, (e.onQuery q).bool = some b ∧ b.Complete := by
  obtain ⟨b, hb, hget⟩ := e.get_onQuery q he
  refine ⟨b, hb, .of_isSome ((keysApart_onQuery he hq).bool hb) fun s => ?_⟩
  rw [hget s]
  rfl

/-- An edit of the bool query can always be applied. -/
theorem apply_of_installsBool {e : Edit} (he : e.installsBool = true) (d : Document) :
    ∃ d', e.apply d = .ok d' := by
  cases e with
  | append | installBool | setMinimum => exact ⟨_, rfl⟩
  | _ => cases he

/-- The edit puts another query in the place of the whole query. -/
def replacesQuery : Edit → Bool
  | wrap _ | replaceQuery _ | reset => true
  | _ => false

/-- The other edits leave the query alone. -/
theorem onQuery_eq_self {e : Edit} (hi : e.installsBool = false) (hr : e.replacesQuery = false)
    (q : QueryRoot Clause) : e.onQuery q = q := by
  cases e with
  | append | installBool | setMinimum => cases hi
  | wrap | replaceQuery | reset => cases hr
  | _ => rfl

end Edit

end SearchRequest

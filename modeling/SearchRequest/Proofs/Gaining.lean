import SearchRequest.Proofs.Installing

/-!
# Clauses for the end of a section

Most calls that change a query add clauses to the end of one of its sections. `Document.Gains` says
all that becomes of a document then:

* the section has the new clauses behind those that it had, and the other sections are as they were.
  All four are installed, so that a value that waited for a section is now its one clause;
* the bound on optional clauses, the other parameters and the queries beside the bool query are as
  they were;
* so is every part of the document beside the query.

There is nothing more to say: the document before, the section and the new clauses determine the
document after (`Document.Gains.eq_editBool`).
-/

namespace SearchRequest

/-! ## Values that wait -/

/-- Removing a key, as a filter. -/
theorem Object.erase_eq_filter (members : Object) (key : String) :
    members.erase key = members.filter fun m => key != m.1 := by
  induction members with
  | nil => rfl
  | cons m rest ih =>
    obtain ⟨k, v⟩ := m
    by_cases hk : k = key
    · subst hk
      rw [erase, if_pos rfl, ih, List.filter_cons_of_neg]
      simp
    · rw [erase, if_neg hk, ih, List.filter_cons_of_pos]
      simpa using Ne.symm hk

namespace BoolQuery

variable {C : Type} (raw : Value → C)

/-- A value under the key, if there is one, waits for a section. -/
def waitsUnder (b : BoolQuery C) (key : String) : Bool :=
  Section.all.any fun s => s.text == key && (b.get s).isNone

/-- The other parameters, without the values that wait for a section. -/
def settled (b : BoolQuery C) : Object := b.extra.filter fun m => !b.waitsUnder m.1

/-- Installing sections takes the values that waited for them out of the other parameters. -/
theorem extra_foldl_install (sections : List Section) (b : BoolQuery C) :
    (sections.foldl (install raw) b).extra =
      b.extra.filter fun m => !sections.any fun s => s.text == m.1 && (b.get s).isNone := by
  induction sections generalizing b with
  | nil => exact (List.filter_eq_self.2 fun _ _ => rfl).symm
  | cons s rest ih =>
    have hfirst : (b.install raw s).extra =
        b.extra.filter fun m => !(s.text == m.1 && (b.get s).isNone) := by
      rw [extra_install]
      rcases b.get s with _ | cs
      · rw [if_pos rfl, Object.erase_eq_filter]
        simp [bne]
      · rw [if_neg (Option.some_ne_none cs)]
        simp
    rw [List.foldl_cons, ih, hfirst, List.filter_filter]
    refine List.filter_congr fun m _ => ?_
    rcases hm : s.text == m.1 && (b.get s).isNone with _ | _
    · -- what waits for one of the sections behind `s` does so whether `s` is installed or not
      have hrest (t : Section) : (t.text == m.1 && ((b.install raw s).get t).isNone) =
          (t.text == m.1 && (b.get t).isNone) := by
        rw [get_install]
        by_cases ht : t = s
        · rw [if_pos ht, ht, hm]
          exact Bool.and_false _
        · rw [if_neg ht]
      rw [List.any_cons, hm, List.any_congr rfl hrest, Bool.false_or]
      exact Bool.and_true _
    · rw [List.any_cons, hm, Bool.true_or]
      exact Bool.and_false _

theorem extra_installAll (b : BoolQuery C) : (b.installAll raw).extra = b.settled :=
  extra_foldl_install raw Section.all b

theorem minimumShouldMatch_installAll (b : BoolQuery C) :
    (b.installAll raw).minimumShouldMatch = b.minimumShouldMatch := by
  simp only [installAll, Section.all, List.foldl_cons, List.foldl_nil, minimumShouldMatch_install]

/-- What adding clauses to the end of a section makes of a bool query. -/
structure Gains (s : Section) (cs : List C) (b b' : BoolQuery C) : Prop where
  /-- the other sections gain nothing, and all are installed -/
  get (t : Section) : b'.get t = some (b.upcoming raw t ++ if t = s then cs else [])
  minimum : b'.minimumShouldMatch = b.minimumShouldMatch
  extra : b'.extra = b.settled

theorem gains_append (b : BoolQuery C) (s : Section) (cs : List C) :
    b.Gains raw s cs ((b.installAll raw).append raw s cs) where
  get t := by
    rw [get_append, upcoming_installAll, get_installAll]
    by_cases h : t = s
    · rw [if_pos h, if_pos h, h]
    · rw [if_neg h, if_neg h, List.append_nil]
  minimum := by
    rw [append, minimumShouldMatch_set, minimumShouldMatch_install, minimumShouldMatch_installAll]
  extra := by
    have hs : (b.installAll raw).get s ≠ none := by
      rw [get_installAll]
      exact Option.some_ne_none _
    rw [append, extra_set, extra_install, if_neg hs, extra_installAll]

/-- What a bool query gains determines it. -/
theorem Gains.unique {raw : Value → C} {s : Section} {cs : List C} {b b' b'' : BoolQuery C}
    (h : b.Gains raw s cs b') (h' : b.Gains raw s cs b'') : b' = b'' :=
  ext_get (fun t => (h.get t).trans (h'.get t).symm) (h.minimum.trans h'.minimum.symm)
    (h.extra.trans h'.extra.symm)

end BoolQuery

/-! ## Documents -/

namespace Document

/-- The queries beside the bool query at the top. -/
def named (d : Document) : Object := (d.query.map QueryRoot.named).getD []

/-- What adding clauses to the end of a section makes of a document. -/
structure Gains (s : Section) (cs : List Clause) (d d' : Document) : Prop where
  /-- every part beside the query is as it was -/
  rest : d' = { d with query := d'.query }
  named : d'.named = d.named
  bool : (d.bool?.getD {}).Gains .raw s cs (d'.bool?.getD {})

theorem gains_editBool (d : Document) (s : Section) (cs : List Clause) :
    d.Gains s cs (d.editBool (·.append .raw s cs)) where
  rest := rfl
  named := by
    rcases d with ⟨_, _, _ | q⟩ <;> rfl
  bool := by
    have hbool : (d.query.getD {}).bool.getD {} = d.bool?.getD {} := by
      rcases d with ⟨_, _, _ | q⟩ <;> rfl
    rw [← hbool]
    exact BoolQuery.gains_append .raw _ s cs

/-- A document with an installed section, from its bool query and the queries beside it. -/
theorem query_eq_of_get {d : Document} {s : Section} {cs : List Clause}
    (h : (d.bool?.getD {}).get s = some cs) :
    d.query = some ⟨some (d.bool?.getD {}), d.named⟩ := by
  have hempty : ({} : BoolQuery Clause).get s ≠ some cs := by
    cases s <;> exact Option.some_ne_none cs ∘ Eq.symm
  rcases d with ⟨_, _, _ | ⟨_ | b, named⟩⟩
  · exact absurd h hempty
  · exact absurd h hempty
  · rfl

/-- **What a document gains determines it.** -/
theorem Gains.eq_editBool {s : Section} {cs : List Clause} {d d' : Document}
    (h : d.Gains s cs d') : d' = d.editBool (·.append .raw s cs) := by
  have hg := d.gains_editBool s cs
  have hquery : d'.query = (d.editBool (·.append .raw s cs)).query := by
    rw [query_eq_of_get (h.bool.get s), query_eq_of_get (hg.bool.get s), h.bool.unique hg.bool,
      h.named, hg.named]
  rw [h.rest, hquery]
  rfl

end Document

end SearchRequest

import SearchRequest.Proofs.ClauseRules
import SearchRequest.Proofs.Installing
import SearchRequest.Proofs.Written

/-!
# Nothing is overwritten

A query is written by putting members into one object after the other, and a second member under
one key would take the place of the first. `QueryRoot.WrittenInFull` says that this never happens:
what is written of a query is one member for each of its parts, under different keys.

It holds of every query whose parts have different keys (`QueryRoot.Tidy`), and so of the queries
that builders come to and of those embedded in them, at whatever depth
(`Builder.written_in_full`).
-/

namespace SearchRequest

/-! ## Tidy queries -/

namespace QueryRoot

variable {C D : Type}

/-- The keys of the query stay apart, and those of the queries beside the bool query are
distinct. -/
structure Tidy (q : QueryRoot C) : Prop extends q.KeysApart where
  nodup : q.named.keys.Nodup

/-- The names of the queries beside the bool query are distinct in an adopted query, if the raw one
is well formed. -/
theorem nodup_named_of_adopt {raw : Value → C} {v : Value} {q : QueryRoot C}
    (hw : v.wellFormed = true) (h : adopt raw v = .ok q) : q.named.keys.Nodup := by
  obtain ⟨members, rfl, ⟨-, rfl⟩ | ⟨body, b, -, -, rfl⟩⟩ := adopt_eq_ok_iff.1 h
  · exact (Value.wellFormed_obj.1 hw).1
  · exact Object.nodup_keys_erase (Value.wellFormed_obj.1 hw).1 boolKey

/-- Edits of the bool query leave the other queries alone. -/
theorem Reached.nodup_named {config : Config} {q : QueryRoot Clause}
    (h : q.Reached config fun v => v.wellFormed = true) : q.named.keys.Nodup := by
  induction h with
  | wrapper => exact List.nodup_nil
  | matchAll => exact List.nodup_singleton _
  | adopt hv ha => exact nodup_named_of_adopt hv ha
  | wrap => exact List.nodup_singleton _
  | install _ ih | setMinimum _ _ ih | clause _ _ ih => exact ih
  | merge _ _ _ _ ih | embed _ _ _ _ ih => exact ih

/-- **Queries are tidy** that builders come to. -/
theorem Reached.tidy {config : Config} {q : QueryRoot Clause}
    (h : q.Reached config fun v => v.wellFormed = true) : q.Tidy :=
  ⟨h.keysApart, h.nodup_named⟩

namespace Tidy

variable {q : QueryRoot C}

/-- The finalizer keeps a query tidy. -/
theorem finalized (h : q.Tidy) : q.finalized.Tidy := by
  refine ⟨h.toKeysApart.finalized, ?_⟩
  obtain ⟨bool, named⟩ := q
  rcases bool with _ | b
  · exact h.nodup
  · rw [QueryRoot.finalized]
    by_cases he : b.prune.isEmpty = true
    · simp only [if_pos he]
      exact List.nodup_singleton _
    · simp only [if_neg he]
      exact h.nodup

/-- What the clauses are does not matter. -/
theorem map (h : q.Tidy) (f : C → D) : (q.map f).Tidy := ⟨h.toKeysApart.map f, h.nodup⟩

end Tidy

end QueryRoot

/-! ## Written in full -/

namespace BoolQuery

/-- One member is written for each of the other parameters, for each installed section, and for the
bound if it is set. Their keys are distinct. -/
def WrittenInFull (b : BoolQuery Value) : Prop :=
  b.members = b.extra ++ (b.sectionMembers ++ b.minimumMembers) ∧ b.members.keys.Nodup

theorem eq_minimumKey_of_mem {b : BoolQuery Value} {key : String}
    (h : key ∈ b.minimumMembers.keys) : key = minimumKey := by
  rw [minimumMembers] at h
  rcases hv : b.minimumShouldMatch with _ | v
  · rw [hv] at h
    cases h
  · rw [hv] at h
    exact List.mem_singleton.1 h

theorem nodup_keys_minimumMembers (b : BoolQuery Value) : b.minimumMembers.keys.Nodup := by
  rw [minimumMembers]
  rcases b.minimumShouldMatch with _ | v
  · exact List.nodup_nil
  · exact List.nodup_singleton _

/-- With keys apart no member takes the place of another. -/
theorem WrittenInFull.of_keysApart {b : BoolQuery Value} (h : b.KeysApart) : b.WrittenInFull := by
  refine ⟨members_eq h, ?_⟩
  have hsections {key : String} (hk : key ∈ b.sectionMembers.keys) :
      key ∉ b.extra.keys ∧ key ≠ minimumKey := by
    obtain ⟨s, cs, hg, rfl⟩ := exists_of_mem_keys_sectionMembers hk
    exact ⟨h.installed hg, (minimumKey_ne_text s).symm⟩
  rw [members_eq h, Object.keys_append, Object.keys_append, List.nodup_append, List.nodup_append]
  refine ⟨h.nodup, ⟨nodup_keys_sectionMembers b, nodup_keys_minimumMembers b, ?_⟩, ?_⟩
  · rintro key hk _ hm rfl
    exact (hsections hk).2 (eq_minimumKey_of_mem hm)
  · rintro key hk _ hm rfl
    rcases List.mem_append.1 hm with hm | hm
    · exact (hsections hm).1 hk
    · exact h.minimum (eq_minimumKey_of_mem hm ▸ hk)

end BoolQuery

namespace QueryRoot

/-- The member that the bool query is written as, if there is one. -/
def boolMembers (q : QueryRoot Value) : Object := (q.bool.map fun b => (boolKey, b.render)).toList

/-- One member is written for each named query, and one for the bool query if there is one. Their
keys are distinct. The bool query itself is written in full. -/
def WrittenInFull (q : QueryRoot Value) : Prop :=
  q.members = q.named ++ q.boolMembers ∧ q.members.keys.Nodup ∧
    ∀ b, q.bool = some b → b.WrittenInFull

/-- **Tidy queries are written in full.** -/
theorem WrittenInFull.of_tidy {q : QueryRoot Value} (h : q.Tidy) : q.WrittenInFull := by
  refine ⟨?_, ?_, fun b hb => .of_keysApart (h.bool hb)⟩
  · rw [members, boolMembers]
    rcases q.bool with _ | b
    · exact (List.append_nil _).symm
    · exact Object.insert_of_not_mem _ h.named
  · rw [members]
    rcases q.bool with _ | b
    · exact h.nodup
    · exact Object.nodup_keys_insert h.nodup _ _

/-! ## Queries within queries -/

/-- The query itself, or one that a clause within it holds. -/
def PartOf (r q : QueryRoot Clause) : Prop :=
  r = q ∨ ∃ c : Clause, c.Within q ∧ c.embedded? = some r

/-- **Tidy at every depth**: the queries that builders come to, and all queries embedded in them. -/
theorem Reached.tidy_of_partOf {config : Config} {q r : QueryRoot Clause}
    (h : q.Reached config fun v => v.wellFormed = true) (hr : r.PartOf q) : r.Tidy := by
  rcases hr with rfl | ⟨c, hc, he⟩
  · exact h.tidy
  · have hdeep : q.Deep fun c => ∀ sub, c.embedded? = some sub → sub.Tidy := by
      refine h.deep_of_reached (fun v sub hs => by cases hs) (fun hcheck => ?_) fun _ hsub => ?_
      · have hnone := (ClauseCall.lawful_of_check hcheck).2
        refine ⟨fun sub hs => ?_, hnone⟩
        rw [hnone] at hs
        cases hs
      · intro sub hs
        rw [Embedding.embedded?_clause] at hs
        obtain rfl := Option.some.inj hs
        exact hsub.tidy.finalized
    exact hdeep c hc r he

end QueryRoot

/-! ## Queries of a builder -/

namespace Builder

/-- **Nothing is overwritten** in what is written of a builder's query, nor in what is written of
the queries within it. After a run in which all raw queries are well formed, no key of such a query
has two places, and it is written in full. A further step that adds clauses, sets the bound on
optional clauses or asks for the bool query leaves all four sections installed, with no value
waiting. -/
theorem written_in_full {config : Config} {calls : List Call}
    (hw : ∀ call ∈ calls, call.Adopts fun v => v.wellFormed = true) :
    let b := (start config).run calls
    ∃ q, b.document.query = some q ∧
      (∀ r : QueryRoot Clause, r.PartOf q → r.KeysApart ∧ (r.map Clause.toValue).WrittenInFull) ∧
      ∀ s b', s.installsBool = true → b.step s = .ok b' →
        ∃ installed, b'.document.bool? = some installed ∧ installed.Complete := by
  intro b
  obtain ⟨q, hq, hr⟩ := queryReached_run hw
  refine ⟨q, hq, fun r hpart => ?_, fun s b' hs hstep => ?_⟩
  · have htidy : r.Tidy := hr.tidy_of_partOf hpart
    exact ⟨htidy.toKeysApart, .of_tidy (htidy.map Clause.toValue)⟩
  · obtain ⟨d, hd, rfl⟩ := step_eq_ok_iff.1 hstep
    obtain ⟨e, he, hd⟩ := Step.apply_eq_ok_iff.1 hd
    rw [Step.installsBool_of_edit he] at hs
    obtain ⟨installed, hi, hcomplete⟩ := Edit.complete_onQuery hs hr.keysApart
    refine ⟨installed, ?_, hcomplete⟩
    rw [Document.bool?, Edit.query_apply hd hq, Option.bind_some, hi]

/-- A value waits under a section's key, the query has a sibling, and a clause holds a query of its
own. -/
theorem written_in_full_of_waiting :
    let b := (start {}).run
      [.step (.setQuery (.obj [("knn", .obj []), ("bool", .obj [("must", .str "later")])])),
       .step (.embed .nested "lines" [.clause (.term "kind" (.str "book"))])]
    ∃ q, b.document.query = some q ∧
      (∀ r : QueryRoot Clause, r.PartOf q → r.KeysApart ∧ (r.map Clause.toValue).WrittenInFull) ∧
      ∀ s b', s.installsBool = true → b.step s = .ok b' →
        ∃ installed, b'.document.bool? = some installed ∧ installed.Complete := by
  refine written_in_full ?_
  rw [List.forall_mem_cons, List.forall_mem_singleton]
  exact ⟨rfl, ⟨trivial, trivial⟩⟩

end Builder

end SearchRequest

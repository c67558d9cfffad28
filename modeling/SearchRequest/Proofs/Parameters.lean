import SearchRequest.Proofs.ClauseRules
import SearchRequest.Proofs.Comparing

/-!
# Parameters of written clauses

Written clauses can be told apart by their parameters: two clauses that calls have added are written
alike only if they are of one kind and all their parameters agree (`Step.Pushes.toValue_alike`).
What calls ask of their arguments is needed for this. A floating number that is not finite would be
written `null`, and neither boosts nor coordinates are such numbers.

There is one exception, `Clause.OverwriteDistance`. A clause of the kind `geo_distance` is written
with the distance under `distance` and the point under the field, side by side in one object. If the
field is called `distance`, the point takes the place of the distance.

How the parameters are compared is left open, see `Value.ByParts`: as data, or without regard to the
order of members.
-/

namespace SearchRequest

/-! ## Tokens -/

/-- Different operators have different tokens. -/
theorem MatchOperator.text_inj {o o' : MatchOperator} : o.text = o'.text ↔ o = o' := by
  cases o <;> cases o' <;> decide

/-- Different strategies have different tokens. -/
theorem MatchStrategy.text_inj {s s' : MatchStrategy} : s.text = s'.text ↔ s = s' := by
  cases s <;> cases s' <;> decide

/-! ## Finite coordinates -/

/-- The coordinates of a point on the globe are finite. -/
theorem GeoPoint.OnGlobe.isFinite {p : GeoPoint} (h : p.OnGlobe) :
    p.lat.isFinite = true ∧ p.lon.isFinite = true :=
  ⟨Double.isFinite_of_within (by decide) (by decide) h.1,
    Double.isFinite_of_within (by decide) (by decide) h.2⟩

/-! ## Clauses that agree -/

/-- The points agree, coordinate by coordinate. -/
def GeoPoint.Alike (D : Double → Double → Prop) (p q : GeoPoint) : Prop :=
  D p.lat q.lat ∧ D p.lon q.lon

namespace Clause

/-- The clauses are of one kind, and their parameters agree: JSON values by `S`, floating numbers by
`D`, and all others as data. Embedded queries are compared as they are written. -/
def Alike (S : Value → Value → Prop) (D : Double → Double → Prop) : Clause → Clause → Prop
  | textMatch f q o, textMatch f' q' o' => f = f' ∧ S q q' ∧ o = o'
  | matchPhrase f q n, matchPhrase f' q' n' => f = f' ∧ S q q' ∧ n = n'
  | multiMatch fs q s, multiMatch fs' q' s' => fs = fs' ∧ S q q' ∧ s = s'
  | term f v, term f' v' | wildcard f v, wildcard f' v' | startsWith f v, startsWith f' v'
  | regexp f v, regexp f' v' => f = f' ∧ S v v'
  | terms f vs, terms f' vs' => f = f' ∧ List.Forall₂ S vs vs'
  | range f b, range f' b' => f = f' ∧ S (.obj b) (.obj b')
  | fieldExists f, fieldExists f' => f = f'
  | fuzzy f v o, fuzzy f' v' o' =>
    f = f' ∧ S v v' ∧ Option.Rel S o.fuzziness o'.fuzziness ∧ Option.Rel D o.boost o'.boost
  | queryString q o, queryString q' o' => S q q' ∧ o = o'
  | simpleQueryString q fs, simpleQueryString q' fs' => S q q' ∧ fs = fs'
  | geoDistance f p d, geoDistance f' p' d' => f = f' ∧ p.Alike D p' ∧ d = d'
  | geoBoundingBox f p q, geoBoundingBox f' p' q' => f = f' ∧ p.Alike D p' ∧ q.Alike D q'
  | geoPolygon f ps, geoPolygon f' ps' => f = f' ∧ List.Forall₂ (GeoPoint.Alike D) ps ps'
  | nested l q, nested l' q' | hasChild l q, hasChild l' q' | hasParent l q, hasParent l' q' =>
    l = l' ∧ S q.toValue q'.toValue
  | script s ps, script s' ps' => S s s' ∧ Option.Rel (fun a b => S (.obj a) (.obj b)) ps ps'
  | moreLikeThis fs l o, moreLikeThis fs' l' o' => fs = fs' ∧ S l l' ∧ o = o'
  | raw v, raw v' => S v v'
  | _, _ => False

/-- Both clauses ask for points near some point, in a field called `distance`, and the points agree.
Nothing is said of the distances. -/
def OverwriteDistance (D : Double → Double → Prop) (c c' : Clause) : Prop :=
  ∃ p p' d d', c = geoDistance "distance" p d ∧ c' = geoDistance "distance" p' d' ∧ p.Alike D p'

/-- The clause is given as JSON. -/
def isRaw : Clause → Bool
  | raw _ => true
  | _ => false

/-- Clauses that agree are of one kind. -/
theorem Alike.kind_eq {S : Value → Value → Prop} {D : Double → Double → Prop} {c c' : Clause}
    (hc : c.isRaw = false) (h : c.Alike S D c') : c.kind = c'.kind := by
  cases c <;> cases c' <;> try exact False.elim h
  case raw.raw => cases hc
  all_goals rfl

/-- Only points near another one are asked for under the kind `geo_distance`. -/
theorem eq_geoDistance_of_kind {c : Clause} (hc : c.isRaw = false) (hk : c.kind = "geo_distance") :
    ∃ f p d, c = geoDistance f p d := by
  cases c with
  | geoDistance f p d => exact ⟨f, p, d, rfl⟩
  | raw => cases hc
  | _ => simp only [kind, String.reduceEq] at hk

/-! ## Written clauses -/

/-- A clause that is not given as JSON is written under its kind. -/
theorem toValue_eq_single {c : Clause} (hc : c.isRaw = false) :
    ∃ body, c.toValue = .single c.kind body := by
  cases c with
  | raw => cases hc
  | _ => exact ⟨_, rfl⟩

end Clause

namespace Value.ByParts

variable {S : Value → Value → Prop} {D : Double → Double → Prop} (h : Value.ByParts S D)
include h

theorem point_iff {p q : GeoPoint} (hp : p.OnGlobe) (hq : q.OnGlobe) :
    S p.toValue q.toValue ↔ p.Alike D q := by
  obtain ⟨hlat, hlon⟩ := hp.isFinite
  obtain ⟨hlat', hlon'⟩ := hq.isFinite
  rw [GeoPoint.toValue, GeoPoint.toValue, h.pair_iff (by decide), h.ofDouble_iff hlat hlat',
    h.ofDouble_iff hlon hlon', GeoPoint.Alike]

theorem points_iff {ps qs : List GeoPoint} (hps : ∀ p ∈ ps, p.OnGlobe)
    (hqs : ∀ q ∈ qs, q.OnGlobe) :
    S (.arr (ps.map GeoPoint.toValue)) (.arr (qs.map GeoPoint.toValue)) ↔
      List.Forall₂ (GeoPoint.Alike D) ps qs := by
  rw [h.arr_iff, List.forall₂_map_left_iff, List.forall₂_map_right_iff]
  exact forall₂_congr_mem fun p hp q hq => h.point_iff (hps p hp) (hqs q hq)

theorem embedded_iff {kind key : String} (hkey : key ≠ "query") {l l' : String}
    {q q' : QueryRoot Clause} :
    S (.single kind (.obj [(key, .str l), ("query", q.toValue)]))
        (.single kind (.obj [(key, .str l'), ("query", q'.toValue)])) ↔
      l = l' ∧ S q.toValue q'.toValue := by
  rw [h.inside_iff, h.pair_iff hkey, h.str_iff]

/-- Clauses of one kind are told apart by their parameters. Points near another one are looked at
in `geoDistance_iff`. -/
theorem toValue_iff_of_kind_eq {config config' : Config} {c c' : Clause} (hl : c.Lawful config)
    (hl' : c'.Lawful config') (hc : c.isRaw = false) (hc' : c'.isRaw = false)
    (hk : c.kind = c'.kind) (hg : c.kind ≠ "geo_distance") :
    S c.toValue c'.toValue ↔ c.Alike S D c' := by
  -- clauses of different kinds are ruled out, which leaves one case for each kind
  cases c <;> cases c' <;>
    simp only [Clause.kind, Clause.isRaw, String.reduceEq, Bool.true_eq_false] at hk hc hc'
  case textMatch.textMatch | matchPhrase.matchPhrase =>
    refine h.inside_iff.trans (h.single_iff.trans (and_congr_right' ?_))
    simp [h.record_iff, optionRel_map_iff, h.str_iff, h.nat_iff, MatchOperator.text_inj,
      optionRel_eq_iff]
  case multiMatch.multiMatch =>
    refine h.inside_iff.trans ?_
    simp [h.record_iff, optionRel_map_iff, h.str_iff, h.strings_iff, MatchStrategy.text_inj,
      optionRel_eq_iff, Clause.Alike, and_left_comm]
  case term.term => exact h.inside_iff.trans h.single_iff
  case terms.terms => exact h.inside_iff.trans (h.single_iff.trans (and_congr_right' h.arr_iff))
  case range.range => exact h.inside_iff.trans h.single_iff
  case fieldExists.fieldExists => exact h.inside_iff.trans (h.inside_iff.trans h.str_iff)
  case wildcard.wildcard | startsWith.startsWith | regexp.regexp =>
    exact h.inside_iff.trans (h.single_iff.trans (and_congr_right' h.inside_iff))
  case fuzzy.fuzzy f v o f' v' o' =>
    obtain ⟨-, -, hfinite⟩ := hl
    obtain ⟨-, -, hfinite'⟩ := hl'
    have hboost : Option.Rel (fun b b' => S (.ofDouble b) (.ofDouble b')) o.boost o'.boost ↔
        Option.Rel D o.boost o'.boost :=
      optionRel_congr fun b b' hb hb' => h.ofDouble_iff
        (Argument.boost_eq_ok_iff.1 (hfinite b hb "")).1
        (Argument.boost_eq_ok_iff.1 (hfinite' b' hb' "")).1
    refine h.inside_iff.trans (h.single_iff.trans (and_congr_right' ?_))
    simp [h.record_iff, optionRel_map_iff, hboost]
  case queryString.queryString q o q' o' =>
    obtain ⟨d, fs, op⟩ := o
    obtain ⟨d', fs', op'⟩ := o'
    refine h.inside_iff.trans ?_
    simp [h.record_iff, optionRel_map_iff, h.str_iff, h.strings_iff, MatchOperator.text_inj,
      optionRel_eq_iff, Clause.Alike]
  case simpleQueryString.simpleQueryString =>
    refine h.inside_iff.trans ?_
    simp [h.record_iff, optionRel_map_iff, h.strings_iff, optionRel_eq_iff, Clause.Alike]
  case geoDistance.geoDistance => exact absurd rfl hg
  case geoBoundingBox.geoBoundingBox =>
    obtain ⟨-, htop, hbottom, -⟩ := hl
    obtain ⟨-, htop', hbottom', -⟩ := hl'
    refine h.inside_iff.trans (h.single_iff.trans (and_congr_right' ?_))
    rw [h.pair_iff (by decide), h.point_iff htop htop', h.point_iff hbottom hbottom']
  case geoPolygon.geoPolygon =>
    refine h.inside_iff.trans (h.single_iff.trans (and_congr_right' (h.inside_iff.trans ?_)))
    exact h.points_iff hl.2.2 hl'.2.2
  case nested.nested | hasChild.hasChild | hasParent.hasParent =>
    simp only [Clause.toValue_nested, Clause.toValue_hasChild, Clause.toValue_hasParent]
    exact h.embedded_iff (by decide)
  case script.script =>
    refine h.inside_iff.trans (h.inside_iff.trans ?_)
    simp [h.record_iff, optionRel_map_iff, Clause.Alike]
  case moreLikeThis.moreLikeThis fs l o fs' l' o' =>
    obtain ⟨a, b, c⟩ := o
    obtain ⟨a', b', c'⟩ := o'
    refine h.inside_iff.trans ?_
    simp [h.record_iff, optionRel_map_iff, h.strings_iff, h.nat_iff, optionRel_eq_iff,
      Clause.Alike]

/-- A clause of the kind `geo_distance` whose field is not called `distance` is written with its
distance; else the point stands in its place. -/
theorem geoDistance_iff {config config' : Config} {f f' d d' : String} {p p' : GeoPoint}
    (hl : (Clause.geoDistance f p d).Lawful config)
    (hl' : (Clause.geoDistance f' p' d').Lawful config') :
    S (Clause.geoDistance f p d).toValue (Clause.geoDistance f' p' d').toValue ↔
      f = f' ∧ p.Alike D p' ∧ (f = "distance" ∨ d = d') := by
  have hpoint := h.point_iff hl.2.1 hl'.2.1
  have hbody {f : String} (hf : f ≠ "distance") (d : String) (v : Value) :
      Object.insert [("distance", .str d)] f v = [("distance", .str d), (f, v)] := by
    rw [Object.insert, if_neg (Ne.symm hf), Object.insert]
  refine h.inside_iff.trans ⟨fun hs => ?_, ?_⟩
  · have hkeys (f d : String) (v : Value) :
        (Object.insert [("distance", .str d)] f v).keys.Nodup := by
      refine Object.nodup_keys_insert ?_ f v
      exact List.nodup_singleton "distance"
    have hmem {f g d : String} {v : Value} :
        g ∈ (Object.insert [("distance", .str d)] f v).keys ↔ g = f ∨ g = "distance" := by
      rw [Object.mem_keys_insert, Object.keys_cons, Object.keys_nil, List.mem_singleton]
    -- the field of the one is a key of the other, and `distance` only if both are
    have hf := (h.mem_keys_iff (hkeys f d _) (hkeys f' d' _) hs f).1 (hmem.2 (.inl rfl))
    have hf' := (h.mem_keys_iff (hkeys f d _) (hkeys f' d' _) hs f').2 (hmem.2 (.inl rfl))
    rw [hmem] at hf hf'
    obtain rfl : f = f' := by
      rcases hf with hf | hf
      · exact hf
      · rcases hf' with hf' | hf'
        · exact hf'.symm
        · rw [hf, hf']
    by_cases hd : f = "distance"
    · subst hd
      exact ⟨rfl, hpoint.1 (h.inside_iff.1 hs), .inl rfl⟩
    · rw [hbody hd, hbody hd, h.pair_iff (Ne.symm hd), h.str_iff] at hs
      exact ⟨rfl, hpoint.1 hs.2, .inr hs.1⟩
  · rintro ⟨rfl, hp, hd⟩
    by_cases hf : f = "distance"
    · subst hf
      exact h.inside_iff.2 (hpoint.2 hp)
    · rw [hbody hf, hbody hf, h.pair_iff (Ne.symm hf), h.str_iff]
      exact ⟨hd.resolve_left hf, hpoint.2 hp⟩

/-- **Clauses are told apart by their parameters**, but for distances in a field called
`distance`. -/
theorem toValue_iff {config config' : Config} {c c' : Clause} (hl : c.Lawful config)
    (hl' : c'.Lawful config') (hc : c.isRaw = false) (hc' : c'.isRaw = false) :
    S c.toValue c'.toValue ↔ c.Alike S D c' ∨ c.OverwriteDistance D c' := by
  by_cases hk : c.kind = c'.kind
  · by_cases hg : c.kind = "geo_distance"
    · obtain ⟨f, p, d, rfl⟩ := Clause.eq_geoDistance_of_kind hc hg
      obtain ⟨f', p', d', rfl⟩ := Clause.eq_geoDistance_of_kind hc' hk.symm
      rw [h.geoDistance_iff hl hl']
      constructor
      · rintro ⟨rfl, hp, rfl | rfl⟩
        · exact .inr ⟨p, p', d, d', rfl, rfl, hp⟩
        · exact .inl ⟨rfl, hp, rfl⟩
      · rintro (⟨rfl, hp, rfl⟩ | ⟨_, _, _, _, he, he', hp⟩)
        · exact ⟨rfl, hp, .inr rfl⟩
        · cases he
          cases he'
          exact ⟨rfl, hp, .inl rfl⟩
    · rw [h.toValue_iff_of_kind_eq hl hl' hc hc' hk hg, or_iff_left]
      rintro ⟨_, _, _, _, rfl, -⟩
      exact hg rfl
  · refine iff_of_false (fun hs => hk ?_) ?_
    · obtain ⟨body, hb⟩ := Clause.toValue_eq_single hc
      obtain ⟨body', hb'⟩ := Clause.toValue_eq_single hc'
      rw [hb, hb', h.single_iff] at hs
      exact hs.1
    · rintro (ha | ⟨_, _, _, _, rfl, rfl, -⟩)
      · exact hk (ha.kind_eq hc)
      · exact hk rfl

end Value.ByParts

/-! ## Clauses that calls push -/

/-- The step passes its checks and adds one clause of its own: it is a call for a clause that is not
given as JSON, or it embeds the query of a callback. -/
inductive Step.Pushes (config : Config) : Step → Clause → Prop where
  | clause {call : ClauseCall} {s : Section} {c : Clause}
    (h : (Step.clause call).edit config = .ok (.append s [c])) (hc : c.isRaw = false) :
    Pushes config (.clause call) c
  | embed {link : Embedding} {label : String} {steps : List Step} {s : Section} {c : Clause}
    (h : (Step.embed link label steps).edit config = .ok (.append s [c])) :
    Pushes config (.embed link label steps) c

namespace Step.Pushes

variable {config config' : Config} {step step' : Step} {c c' : Clause}

theorem isRaw (h : step.Pushes config c) : c.isRaw = false := by
  cases h with
  | clause h hc => exact hc
  | @embed link label steps s _ h =>
    obtain ⟨_, -, h⟩ := Checked.bind_eq_ok_iff.1 h
    obtain ⟨d, -, h⟩ := Checked.bind_eq_ok_iff.1 h
    cases h
    cases link <;> rfl

/-- A clause that a step pushes follows the rules of its kind. -/
theorem lawful (h : step.Pushes config c) : c.Lawful config := by
  cases h with
  | clause h hc =>
    obtain ⟨⟨s, c⟩, hcheck, h⟩ := Checked.map_eq_ok_iff.1 h
    cases h
    exact (ClauseCall.lawful_of_check hcheck).1
  | @embed link label steps s _ h =>
    obtain ⟨_, hl, h⟩ := Checked.bind_eq_ok_iff.1 h
    obtain ⟨d, -, h⟩ := Checked.bind_eq_ok_iff.1 h
    cases h
    obtain ⟨sub, hsub⟩ : ∃ sub : QueryRoot Clause, d.embeddable = sub.finalized := by
      rcases hq : d.query with _ | q
      · refine ⟨.matchAll, ?_⟩
        rw [Document.embeddable, hq]
        rfl
      · exact ⟨q, Document.embeddable_of_query hq⟩
    rw [hsub]
    exact Embedding.lawful_clause config hl sub

/-- **A written clause keeps its parameters.** Clauses that steps push are written as objects with
one key, their kind, which is also the kind that is read off what is written. Two of them are
written alike if and only if their parameters agree, with one exception: near a point in a field
called `distance`, the distances are not written. This holds with the order of members and without
it. -/
theorem toValue_alike (h : step.Pushes config c) (h' : step'.Pushes config' c') :
    (∃ body, c.toValue = .single c.kind body) ∧ (Clause.raw c.toValue).kind = c.kind ∧
      (c.toValue = c'.toValue ↔
        c.Alike (· = ·) (· = ·) c' ∨ c.OverwriteDistance (· = ·) c') ∧
      (c.toValue.same c'.toValue = true ↔
        c.Alike (fun v w => v.same w) (fun x y => x.same y) c' ∨
          c.OverwriteDistance (fun x y => x.same y) c') := by
  refine ⟨Clause.toValue_eq_single h.isRaw, c.kind_asRaw, ?_, ?_⟩
  · exact Value.ByParts.eq.toValue_iff h.lawful h'.lawful h.isRaw h'.isRaw
  · exact Value.ByParts.same.toValue_iff h.lawful h'.lawful h.isRaw h'.isRaw

/-- Points near another one, and objects nested under a path. -/
theorem toValue_alike_near_nested :
    let near : Clause := .geoDistance "place" ⟨.zero, .zero⟩ "10km"
    let nested : Clause := .nested "place" .matchAll
    (∃ body, near.toValue = .single near.kind body) ∧
      (Clause.raw near.toValue).kind = near.kind ∧
      (near.toValue = nested.toValue ↔
        near.Alike (· = ·) (· = ·) nested ∨ near.OverwriteDistance (· = ·) nested) ∧
      (near.toValue.same nested.toValue = true ↔
        near.Alike (fun v w => v.same w) (fun x y => x.same y) nested ∨
          near.OverwriteDistance (fun x y => x.same y) nested) := by
  intro near nested
  have hnear : (Step.clause (.geoDistance "place" ⟨.zero, .zero⟩ " 10km")).Pushes {} near :=
    .clause (s := .filter) rfl rfl
  have hnested : (Step.embed .nested "place" []).Pushes {} nested := .embed (s := .must) rfl
  exact toValue_alike hnear hnested

/-- Two distances that are asked for in a field called `distance` are written alike. -/
theorem distance_overwritten :
    let near (distance : String) : Clause := .geoDistance "distance" ⟨.zero, .zero⟩ distance
    let call (distance : String) : Step := .clause (.geoDistance "distance" ⟨.zero, .zero⟩ distance)
    (call "10km").Pushes {} (near "10km") ∧ (call "20km").Pushes {} (near "20km") ∧
      (near "10km").toValue = (near "20km").toValue ∧ near "10km" ≠ near "20km" := by
  intro near call
  refine ⟨.clause (s := .filter) rfl rfl, .clause (s := .filter) rfl rfl, rfl, fun h => ?_⟩
  exact absurd (Clause.geoDistance.inj h).2.2 (by decide)

end Step.Pushes

end SearchRequest

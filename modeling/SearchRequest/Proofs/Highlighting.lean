import Mathlib.Logic.Function.Basic
import SearchRequest.Proofs.Attaching

/-!
# The highlight of a run

`highlight` puts a new highlight in the place of the old one, and `highlight_field` changes the one
that is there, in the place of the field. This file says what a run leaves in terms of the steps
that were done, and without writing anything twice (`highlightOf`):

* the fields are those that were mentioned since the last `highlight`, in the order in which they
  were mentioned first;
* each has the options that it was given last since then, or none;
* the options for all fields are those of the last `highlight`.

The main statement is `Builder.highlight_of_run`.
-/

namespace SearchRequest

/-! ## Objects with a value for each name -/

/-- What is left without repetitions has none. -/
theorem nodup_eraseDups {α : Type} [DecidableEq α] (l : List α) : l.eraseDups.Nodup := by
  induction l using List.reverseRecOn with
  | nil => exact List.nodup_nil
  | append_singleton l a ih =>
    rw [eraseDups_concat]
    by_cases h : a ∈ l
    · rw [if_pos h]
      exact ih
    · rw [if_neg h, ← List.concat_eq_append]
      exact ih.concat (mt List.mem_eraseDups.1 h)

namespace Object

/-- The names, without their repetitions, each with its value. -/
def ofNames (names : List String) (value : String → Value) : Object :=
  names.eraseDups.map fun name => (name, value name)

/-- Writing under one of the names, or under a new one, which goes to the end. -/
theorem insert_map {names : List String} (hn : names.Nodup) (value : String → Value) (key : String)
    (v : Value) :
    insert (names.map fun name => (name, value name)) key v =
      (if key ∈ names then names else names ++ [key]).map
        fun name => (name, Function.update value key v name) := by
  induction names with
  | nil => simp [insert]
  | cons name rest ih =>
    obtain ⟨hname, hrest⟩ := List.nodup_cons.1 hn
    rw [List.map_cons, insert]
    by_cases h : name = key
    · -- the other names keep their values, since the written one does not come again
      subst h
      have hothers : rest.map (fun other => (other, value other)) =
          rest.map fun other => (other, Function.update value name v other) := by
        refine List.map_congr_left fun other ho => ?_
        rw [Function.update_of_ne (fun he : other = name => hname (he ▸ ho))]
      rw [if_pos rfl, if_pos List.mem_cons_self, List.map_cons, Function.update_self, hothers]
    · have hmem : key ∈ name :: rest ↔ key ∈ rest := by simp [Ne.symm h]
      rw [if_neg h, ih hrest]
      by_cases hk : key ∈ rest
      · rw [if_pos hk, if_pos (hmem.2 hk), List.map_cons, Function.update_of_ne h]
      · rw [if_neg hk, if_neg (mt hmem.1 hk), List.cons_append, List.map_cons,
          Function.update_of_ne h]

/-- One name more is written. -/
theorem insert_ofNames (names : List String) (value : String → Value) (key : String) (v : Value) :
    (ofNames names value).insert key v =
      ofNames (names ++ [key]) (Function.update value key v) := by
  rw [ofNames, insert_map (nodup_eraseDups names), ofNames, eraseDups_concat]
  simp only [List.mem_eraseDups]

end Object

/-- Fields without options of their own, each in the place of its first mention. -/
theorem plainHighlight_eq_ofNames (fields : List String) :
    plainHighlight fields = .ofNames fields fun _ => .obj [] := by
  induction fields using List.reverseRecOn with
  | nil => rfl
  | append_singleton fields field ih =>
    have hwrite : plainHighlight (fields ++ [field]) =
        (plainHighlight fields).insert field (.obj []) :=
      List.foldl_concat ..
    rw [hwrite, ih, Object.insert_ofNames]
    exact congrArg _ (Function.update_eq_self field fun _ => Value.obj [])

/-! ## What steps highlight -/

namespace Step

/-- The step highlights something. -/
def highlights : Step → Bool
  | highlight .. | highlightField .. => true
  | _ => false

/-- The step replaces an earlier highlight. -/
def replacesHighlight : Step → Bool
  | highlight .. => true
  | _ => false

/-- The fields that a step mentions for highlighting. -/
def mentions : Step → List String
  | highlight fields _ => fields
  | highlightField field _ => [field]
  | _ => []

/-- The options that a step gives to the field alone. -/
def ownOptions? (field : String) : Step → Option Value
  | highlightField f options => if f = field then some options else none
  | _ => none

/-- The options that a step gives to all fields. -/
def topOptions? : Step → Option HighlightOptions
  | highlight _ options => some options
  | _ => none

/-- A step that highlights nothing gives nothing to a highlight. -/
theorem inert_of_not_highlights {s : Step} (h : s.highlights = false) :
    s.replacesHighlight = false ∧ s.mentions = [] ∧ (∀ field, s.ownOptions? field = none) ∧
      s.topOptions? = none := by
  cases s with
  | highlight | highlightField => cases h
  | _ => exact ⟨rfl, rfl, fun _ => rfl, rfl⟩

end Step

/-- The steps from the last `highlight` on, or all of them if there is none. -/
def sinceHighlight : List Step → List Step
  | [] => []
  | s :: rest => if rest.any Step.replacesHighlight then sinceHighlight rest else s :: rest

/-- The options that the field was given last, or none. -/
def ownOptions (history : List Step) (field : String) : Value :=
  (history.filterMap (Step.ownOptions? field)).getLast?.getD (.obj [])

/-- The options that all fields were given last, or unset ones. -/
def topOptions (history : List Step) : HighlightOptions :=
  (history.filterMap Step.topOptions?).getLast?.getD {}

/-- The fields that the steps highlight, in the order in which they are mentioned first, each with
the options that it was given last. -/
def highlightFields (recent : List Step) : Object :=
  .ofNames (recent.flatMap Step.mentions) (ownOptions recent)

/-- **The highlight after some steps**, all of which were done, from none at the start. -/
def highlightOf (history : List Step) : Option Highlight :=
  if history.any Step.highlights then
    some ⟨highlightFields (sinceHighlight history), topOptions history⟩
  else
    none

/-! ## One step more -/

section Concat

variable {history : List Step} {s : Step}

theorem sinceHighlight_concat (history : List Step) (s : Step) :
    sinceHighlight (history ++ [s]) =
      if s.replacesHighlight then [s] else sinceHighlight history ++ [s] := by
  induction history with
  | nil => cases h : s.replacesHighlight <;> rfl
  | cons first rest ih =>
    rw [List.cons_append, sinceHighlight, ih, sinceHighlight, List.any_append]
    cases h : s.replacesHighlight with
    | true => simp [h]
    | false => cases rest.any Step.replacesHighlight <;> simp [h]

theorem topOptions_concat_other (h : s.highlights = false) :
    topOptions (history ++ [s]) = topOptions history := by
  obtain ⟨-, -, -, htop⟩ := Step.inert_of_not_highlights h
  simp [topOptions, htop]

theorem highlightFields_concat_other (h : s.highlights = false) :
    highlightFields (sinceHighlight (history ++ [s])) =
      highlightFields (sinceHighlight history) := by
  obtain ⟨hreplace, hmentions, hown, -⟩ := Step.inert_of_not_highlights h
  have hsame (recent : List Step) : ownOptions (recent ++ [s]) = ownOptions recent := by
    funext field
    simp [ownOptions, hown]
  simp [highlightFields, sinceHighlight_concat, hreplace, hmentions, hsame]

/-- As long as nothing is highlighted, there are no fields and no options. -/
theorem highlightFields_of_none (h : history.any Step.highlights = false) :
    highlightFields (sinceHighlight history) = [] ∧ topOptions history = {} := by
  induction history using List.reverseRecOn with
  | nil => exact ⟨rfl, rfl⟩
  | append_singleton rest s ih =>
    rw [List.any_append, Bool.or_eq_false_iff, List.any_cons, List.any_nil, Bool.or_false] at h
    rw [highlightFields_concat_other h.2, topOptions_concat_other h.2]
    exact ih h.1

/-- A step that highlights nothing. -/
theorem highlightOf_concat_other (h : s.highlights = false) :
    highlightOf (history ++ [s]) = highlightOf history := by
  simp [highlightOf, h, topOptions_concat_other h, highlightFields_concat_other h]

/-- A new highlight. -/
theorem highlightOf_concat_highlight (fields : List String) (options : HighlightOptions) :
    highlightOf (history ++ [.highlight fields options]) =
      some ⟨plainHighlight fields, options⟩ := by
  have hfields : highlightFields [.highlight fields options] = plainHighlight fields := by
    rw [plainHighlight_eq_ofNames, highlightFields, List.flatMap_singleton]
    rfl
  have hoptions : topOptions (history ++ [.highlight fields options]) = options := by
    simp [topOptions, Step.topOptions?]
  simp [highlightOf, Step.highlights, sinceHighlight_concat, Step.replacesHighlight, hfields,
    hoptions]

/-- Another field, or other options for one that is there. -/
theorem highlightOf_concat_field (field : String) (options : Value) :
    highlightOf (history ++ [.highlightField field options]) =
      let h := (highlightOf history).getD {}
      some { h with fields := h.fields.insert field options } := by
  have hown (recent : List Step) : ownOptions (recent ++ [.highlightField field options]) =
      Function.update (ownOptions recent) field options := by
    funext other
    by_cases h : other = field
    · simp [ownOptions, Step.ownOptions?, h]
    · simp [ownOptions, Step.ownOptions?, h, Ne.symm h]
  have hfields : highlightFields (sinceHighlight (history ++ [.highlightField field options])) =
      (highlightFields (sinceHighlight history)).insert field options := by
    rw [sinceHighlight_concat, highlightFields, highlightFields, Object.insert_ofNames]
    simp [Step.replacesHighlight, Step.mentions, hown]
  have hoptions : topOptions (history ++ [.highlightField field options]) = topOptions history := by
    simp [topOptions, Step.topOptions?]
  have hnow : highlightOf (history ++ [.highlightField field options]) =
      some ⟨(highlightFields (sinceHighlight history)).insert field options,
        topOptions history⟩ := by
    simp [highlightOf, Step.highlights, hfields, hoptions]
  rw [hnow, highlightOf]
  cases h : history.any Step.highlights with
  | true => rfl
  | false =>
    obtain ⟨hnone, hunset⟩ := highlightFields_of_none h
    rw [hnone, hunset]
    rfl

end Concat

/-- **One step more** that is done. -/
theorem highlight_apply {config : Config} {done : List Step} {s : Step} {d d' : Document}
    (h : d.highlight = highlightOf (sinceReset done)) (hs : s.apply config d = .ok d') :
    d'.highlight = highlightOf (sinceReset (done ++ [s])) := by
  obtain ⟨e, he, hd⟩ := Step.apply_eq_ok_iff.1 hs
  rw [sinceReset, List.rtakeWhile_concat]
  cases Step.asks_of_edit he with
  | reset =>
    obtain rfl := Except.ok.inj hd
    rfl
  | highlight =>
    obtain rfl := Except.ok.inj hd
    exact (highlightOf_concat_highlight ..).symm
  | highlightField =>
    obtain rfl := Except.ok.inj hd
    refine Eq.trans ?_ (highlightOf_concat_field ..).symm
    rw [← sinceReset, ← h]
    rfl
  | subAggregate =>
    obtain ⟨members, -, rfl⟩ := Option.map_eq_some_iff.1 (Edit.apply_attachUnder_eq_ok_iff.1 hd)
    exact h.trans (highlightOf_concat_other rfl).symm
  | _ =>
    obtain rfl := Except.ok.inj hd
    exact h.trans (highlightOf_concat_other rfl).symm

/-! ## Runs -/

namespace Builder

/-- **The highlight of a run** is made of the steps that were done since the last reset, or since
the start. There is none if none of them highlights anything. Else its fields are those mentioned
since the last `highlight`, in the order in which each was mentioned first; each has the options
that it was given last, and the options for all are those of the last `highlight`. -/
theorem highlight_of_run (config : Config) (calls : List Call) :
    ((start config).run calls).document.highlight =
      highlightOf (sinceReset ((start config).done calls)) := by
  have hstart : (start config).document.highlight = highlightOf (sinceReset []) := rfl
  refine done_run (P := fun done d => d.highlight = highlightOf (sinceReset done)) ?_ hstart
  intro call _ steps _ s _ done d d' hd hs
  exact highlight_apply hd hs

/-- A field that is mentioned again keeps its place; a new highlight drops what was given before,
and a rejected one drops nothing. -/
example :
    ((start {}).run
      [.step (.highlightField "title" (.obj [("type", .str "plain")])),
       .step (.highlight ["title", "body", "title"] { fragmentSize := some 50 }),
       .step (.highlightField "summary" (.obj [])),
       .step (.highlight [] {}),
       .step (.highlightField "title" (.obj [("type", .str "fvh")]))]).document.highlight =
      some
        ⟨[("title", .obj [("type", .str "fvh")]), ("body", .obj []), ("summary", .obj [])],
          { fragmentSize := some 50 }⟩ :=
  rfl

end Builder

end SearchRequest

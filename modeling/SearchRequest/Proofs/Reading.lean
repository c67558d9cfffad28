import SearchRequest.Json.Reader
import SearchRequest.Proofs.Objects

/-!
# What is read from text

The raw queries that a builder adopts and the documents that are decoded come from JSON text. A
value that a text spells is put together in a few ways only, listed in `Reader.Keeps`: an object is
read member by member, and a repeated key is written into its former place, so that no key comes to
stand twice. What holds of all that is put together like this holds of all that is read
(`Reader.Keeps.of_parse`).

The first such property is `Value.wellFormed`. Where a well-formed value is asked for, any value
from text will do (`Value.wellFormed_of_parse`).
-/

namespace SearchRequest

/-- The property holds of a value that is read if it holds of the values in it. -/
structure Reader.Keeps (P : Value → Prop) : Prop where
  null : P .null
  bool (b : Bool) : P (.bool b)
  str (s : String) : P (.str s)
  int {n : Int} (h : Reader.fitsInteger n = true) : P (.int n)
  float {x : Double} (h : x.isFinite = true) : P (.float x)
  arr {items : List Value} (h : ∀ v ∈ items, P v) : P (.arr items)
  obj {members : Object} (hn : members.keys.Nodup) (h : ∀ m ∈ members, P m.2) : P (.obj members)

namespace Reader

/-- A number is read as an integer that fits or as a finite floating number. -/
theorem numberValue_eq_some {negative : Bool} {whole frac : List Char} {exp? : Option Int}
    {v : Value} (h : numberValue negative whole frac exp? = some v) :
    (∃ n, v = .int n ∧ fitsInteger n = true) ∨ ∃ x, v = .float x ∧ x.isFinite = true := by
  unfold numberValue at h
  simp only at h
  generalize (if negative = true then -(Nat.ofDigitChars 10 whole 0 : Int)
    else (Nat.ofDigitChars 10 whole 0 : Int)) = n at h
  split at h
  · next hn =>
    obtain rfl := Option.some.inj h
    simp only [Bool.and_eq_true] at hn
    exact .inl ⟨n, rfl, hn.1.2⟩
  · split at h
    · next hx =>
      obtain rfl := Option.some.inj h
      exact .inr ⟨_, rfl, hx⟩
    · cases h

variable {P : Value → Prop}

theorem Keeps.of_number (hP : Keeps P) {cs rest : List Char} {v : Value}
    (h : number cs = some (v, rest)) : P v := by
  unfold number at h
  simp only at h
  generalize (if (cs.head? == some '-') = true then List.drop 1 cs else cs) = unsigned at h
  split at h
  · cases h
  · split at h
    · cases h
    · split at h
      · cases h
      · obtain ⟨w, hw, he⟩ := Option.map_eq_some_iff.1 h
        cases he
        rcases numberValue_eq_some hw with ⟨n, rfl, hn⟩ | ⟨x, rfl, hx⟩
        · exact hP.int hn
        · exact hP.float hx

-- each reader calls the others with less fuel, so that the three statements are proved together
mutual

theorem Keeps.of_value (hP : Keeps P) (fuel : Nat) {cs rest : List Char} {v : Value}
    (h : value fuel cs = some (v, rest)) : P v := by
  cases fuel with
  | zero =>
    rw [value] at h
    cases h
  | succ fuel =>
    rw [value] at h
    split at h
    · cases h
      exact hP.null
    · cases h
      exact hP.bool true
    · cases h
      exact hP.bool false
    · obtain ⟨r, -, he⟩ := Option.map_eq_some_iff.1 h
      cases he
      exact hP.str _
    · split at h
      · cases h
        exact hP.arr fun _ hv => absurd hv List.not_mem_nil
      · obtain ⟨r, hr, he⟩ := Option.map_eq_some_iff.1 h
        cases he
        exact hP.arr (hP.of_items fuel hr)
    · split at h
      · cases h
        exact hP.obj List.nodup_nil fun _ hm => absurd hm List.not_mem_nil
      · obtain ⟨r, hr, he⟩ := Option.map_eq_some_iff.1 h
        cases he
        have hempty : (Object.keys []).Nodup := List.nodup_nil
        obtain ⟨hn, hms⟩ := hP.of_members fuel hempty (fun _ hm => absurd hm List.not_mem_nil) hr
        exact hP.obj hn hms
    · exact hP.of_number h

theorem Keeps.of_items (hP : Keeps P) (fuel : Nat) {cs rest : List Char} {vs : List Value}
    (h : items fuel cs = some (vs, rest)) : ∀ v ∈ vs, P v := by
  cases fuel with
  | zero =>
    rw [items] at h
    cases h
  | succ fuel =>
    rw [items] at h
    split at h
    · cases h
    · next v rest' hv =>
      split at h
      · obtain ⟨r, hr, he⟩ := Option.map_eq_some_iff.1 h
        cases he
        exact List.forall_mem_cons.2 ⟨hP.of_value fuel hv, hP.of_items fuel hr⟩
      · cases h
        exact List.forall_mem_singleton.2 (hP.of_value fuel hv)
      · cases h

/-- The members that were read before may be replaced by those read now. -/
theorem Keeps.of_members (hP : Keeps P) (fuel : Nat) {done ms : Object} {cs rest : List Char}
    (hn : done.keys.Nodup) (hd : ∀ m ∈ done, P m.2) (h : members fuel done cs = some (ms, rest)) :
    ms.keys.Nodup ∧ ∀ m ∈ ms, P m.2 := by
  cases fuel with
  | zero =>
    rw [members] at h
    cases h
  | succ fuel =>
    rw [members] at h
    split at h
    · split at h
      · cases h
      · next key _ _ =>
        split at h
        · split at h
          · cases h
          · next v _ hv =>
            have hnodup := Object.nodup_keys_insert hn (String.ofList key) v
            have hnext := Object.forall_mem_insert hd (String.ofList key) (hP.of_value fuel hv)
            simp only at h
            split at h
            · exact hP.of_members fuel hnodup hnext h
            · cases h
              exact ⟨hnodup, hnext⟩
            · cases h
        · cases h
    · cases h

end

end Reader

/-- **What holds of values put together as they are read** holds of all that a text spells. -/
theorem Reader.Keeps.of_parse {P : Value → Prop} (hP : Keeps P) {text : String} {v : Value}
    (h : Value.parse? text = some v) : P v := by
  rw [Value.parse?] at h
  split at h
  · next w rest hw =>
    split at h
    · obtain rfl := Option.some.inj h
      exact hP.of_value _ hw
    · cases h
  · cases h

/-! ## Well-formed values -/

/-- **What is read is well formed**: no object in a value that a text spells has a key twice. -/
theorem Value.wellFormed_of_parse {text : String} {v : Value} (h : parse? text = some v) :
    v.wellFormed = true := by
  have hP : Reader.Keeps fun v => v.wellFormed = true :=
    { null := rfl
      bool := fun _ => rfl
      str := fun _ => rfl
      int := fun _ => rfl
      float := fun _ => rfl
      arr := wellFormed_arr.2
      obj := fun hn hms => wellFormed_obj.2 ⟨hn, hms⟩ }
  exact hP.of_parse h

end SearchRequest

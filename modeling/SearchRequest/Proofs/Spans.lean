import Mathlib.Data.List.TakeWhile

/-!
# Spans of characters

Readers take a span, all the characters of one kind from the front of a text, with `takeWhile`, and
go on behind it with `dropWhile`. When a text was put together from parts, the span is a part of it
if what stands behind does not go on with characters of that kind. `Stops` says so by the first
character alone, and in this form it is easily shown of parts that follow one another.
-/

namespace SearchRequest

/-- The text does not begin with a character of the given kind. -/
def Stops (p : Char → Bool) (cs : List Char) : Prop := ∀ c ∈ cs.head?, p c = false

namespace Stops

variable {p : Char → Bool} {xs ys : List Char}

theorem of_forall (h : ∀ c ∈ xs, p c = false) : Stops p xs :=
  fun _ hc => h _ (List.mem_of_mem_head? hc)

theorem append (hx : Stops p xs) (hy : Stops p ys) : Stops p (xs ++ ys) := by
  cases xs with
  | nil => exact hy
  | cons => exact hx

theorem of_append (h : Stops p (xs ++ ys)) : Stops p xs := by
  cases xs with
  | nil => nofun
  | cons => exact h

theorem dropWhile (p : Char → Bool) (cs : List Char) : Stops p (cs.dropWhile p) := by
  induction cs with
  | nil => nofun
  | cons c rest ih =>
    cases hc : p c with
    | true => rwa [List.dropWhile_cons_of_pos hc]
    | false =>
      rw [List.dropWhile_cons_of_neg (by rw [hc]; exact Bool.false_ne_true)]
      intro _ hd
      obtain rfl := Option.some.inj hd
      exact hc

theorem takeWhile_eq_nil (h : Stops p ys) : ys.takeWhile p = [] := by
  cases ys with
  | nil => rfl
  | cons c rest =>
    exact List.takeWhile_cons_of_neg (by rw [h c rfl]; exact Bool.false_ne_true)

theorem dropWhile_eq_self (h : Stops p ys) : ys.dropWhile p = ys := by
  cases ys with
  | nil => rfl
  | cons c rest =>
    exact List.dropWhile_cons_of_neg (by rw [h c rfl]; exact Bool.false_ne_true)

/-- A span is taken to its end and no further. -/
theorem takeWhile_append (h : Stops p ys) (hx : ∀ c ∈ xs, p c = true) :
    (xs ++ ys).takeWhile p = xs := by
  rw [List.takeWhile_append_of_pos hx, h.takeWhile_eq_nil, List.append_nil]

/-- What is left is what stands behind the span. -/
theorem dropWhile_append (h : Stops p ys) (hx : ∀ c ∈ xs, p c = true) :
    (xs ++ ys).dropWhile p = ys := by
  rw [List.dropWhile_append_of_pos hx, h.dropWhile_eq_self]

end Stops

end SearchRequest

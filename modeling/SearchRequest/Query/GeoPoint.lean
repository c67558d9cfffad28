import SearchRequest.Argument.Basic

/-!
# Geographical points

A point is a latitude and a longitude in degrees. A point may hold any two numbers; every operation
that takes one checks it first, see `GeoPoint.check`.
-/

namespace SearchRequest

/-- A latitude and a longitude, in degrees. -/
structure GeoPoint where
  lat : Double
  lon : Double
deriving DecidableEq, Repr

namespace GeoPoint

/-- The latitude lies between the poles. -/
def latitudeValid (p : GeoPoint) : Bool := p.lat.within (.ofInt (-90)) (.ofInt 90)

/-- The longitude lies within half a turn. -/
def longitudeValid (p : GeoPoint) : Bool := p.lon.within (.ofInt (-180)) (.ofInt 180)

/-- A point argument lies on the globe. The latitude is looked at first. -/
def check (p : GeoPoint) (context : String) : Checked Unit := do
  require p.latitudeValid (.latitudeOutside p.lat) "lat" context
  require p.longitudeValid (.longitudeOutside p.lon) "lon" context

/-- All points of a list lie on the globe; the first that does not is reported. -/
def checkAll (context : String) : List GeoPoint → Checked Unit
  | [] => .ok ()
  | p :: rest => do
    p.check context
    checkAll context rest

/-- The point as a request holds it. -/
def toValue (p : GeoPoint) : Value :=
  .obj [("lat", .ofDouble p.lat), ("lon", .ofDouble p.lon)]

/-- The two points have the same coordinates. -/
def same (p q : GeoPoint) : Bool := p.lat.same q.lat && p.lon.same q.lon

@[simp] theorem check_eq_ok_iff {p : GeoPoint} {context : String} {u : Unit} :
    p.check context = .ok u ↔ p.latitudeValid = true ∧ p.longitudeValid = true := by
  cases h : p.latitudeValid <;> cases h' : p.longitudeValid <;>
    simp [check, require, bind, Except.bind, h, h']

@[simp] theorem checkAll_eq_ok_iff {context : String} {ps : List GeoPoint} {u : Unit} :
    checkAll context ps = .ok u ↔
      ∀ p ∈ ps, p.latitudeValid = true ∧ p.longitudeValid = true := by
  induction ps with
  | nil => simp [checkAll]
  | cons p rest ih =>
    cases h : p.check context with
    | error r =>
      have hn : ¬ (p.latitudeValid = true ∧ p.longitudeValid = true) := by
        intro hp
        rw [(check_eq_ok_iff (u := ())).2 hp] at h
        cases h
      simp only [checkAll, h, bind, Except.bind, reduceCtorEq, List.forall_mem_cons, false_iff,
        not_and]
      exact fun hp => absurd hp hn
    | ok u =>
      simp only [checkAll, h, bind, Except.bind, ih, List.forall_mem_cons, check_eq_ok_iff.1 h,
        and_self, true_and]

end GeoPoint

end SearchRequest

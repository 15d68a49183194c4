/-!
# Slices of a list

A slice takes every k-th place between two bounds. Bounds may be left out, and
negative bounds count from the end; bounds outside the list are moved to its
ends. A negative step runs backwards.
-/

namespace DispatchCoverage

/-- Bounds and step of a slice. -/
structure Slice where
  /-- The first place taken. -/
  start : Option Int
  /-- The first place no longer taken. -/
  stop : Option Int
  /-- The distance between places; 1 if left out. -/
  step : Option Int

namespace Slice

/-- A bound counted from the front and moved into a range. -/
def clamp (n lower upper bound : Int) : Int :=
  if bound < 0 then max (bound + n) lower else min bound upper

/-- The places from a first one on, at a distance, as many as there are. -/
def places (start step : Int) : Nat → List Nat
  | 0 => []
  | count + 1 => start.toNat :: places (start + step) step count

/-- The places that a slice takes of a list with n places. A step of zero takes
none, which is an error. -/
def indices? (slice : Slice) (n : Nat) : Option (List Nat) :=
  let step := slice.step.getD 1
  if step = 0 then none
  else if 0 < step then
    let start := (slice.start.map (clamp n 0 n)).getD 0
    let stop := (slice.stop.map (clamp n 0 n)).getD n
    some (places start step ((stop - start + step - 1).toNat / step.toNat))
  else
    let start := (slice.start.map (clamp n (-1) (n - 1))).getD (n - 1)
    let stop := (slice.stop.map (clamp n (-1) (n - 1))).getD (-1)
    some (places start step ((start - stop - step - 1).toNat / (-step).toNat))

/-- The part of a list that a slice takes. -/
def take? {α : Type} (slice : Slice) (l : List α) : Option (List α) :=
  (slice.indices? l.length).map fun places => places.filterMap (l[·]?)

end Slice

end DispatchCoverage

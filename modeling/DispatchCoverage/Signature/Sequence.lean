import DispatchCoverage.Signature
import DispatchCoverage.Slice

/-!
# Signatures as sequences

A signature can be read as the sequence of its type sets: by index, by slice,
and by searching for a set.
-/

namespace DispatchCoverage.Signature

/-- The set at an index, which counts from the end if it is negative. -/
def get? (s : Signature) (index : Int) : Option TypeSet :=
  (position s.arity index).bind (s.parameters[·]?)

/-- The sets that a slice takes, unless its step is zero. -/
def slice? (s : Signature) (slice : Slice) : Option (List TypeSet) :=
  slice.take? s.parameters

/-- The first position of a set within bounds. A negative bound counts from the
end; one before the first position searches from there. -/
def indexOf? (s : Signature) (wanted : TypeSet) (start : Int := 0) (stop : Option Int := none) :
    Option Nat :=
  let n : Int := s.arity
  let first := (if start < 0 then max (n + start) 0 else start).toNat
  let last := match stop with
    | none => n
    | some stop => if stop < 0 then stop + n else stop
  (List.range s.arity).find? fun k =>
    first ≤ k && (k : Int) < last && s.parameters[k]? == some wanted

/-- The number of positions with a given set. -/
def count (s : Signature) (wanted : TypeSet) : Nat := s.parameters.count wanted

end DispatchCoverage.Signature

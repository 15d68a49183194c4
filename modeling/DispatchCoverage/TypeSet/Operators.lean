import DispatchCoverage.TypeSet

/-!
# Operators between a set and a list of types

The operators take a list of types where a set could stand. Union, difference
and symmetric difference first dissolve the alternations of the list;
intersection and the test for disjointness select members of the list as they
stand, so an alternation is never selected.
-/

namespace DispatchCoverage.TypeSet

/-- The members of a set as a list of types. -/
def types (s : TypeSet) : List TypeExpr := s.toList.map .tag

/-- Whether a type is, as it stands, a member of a set: alternations are not. -/
def holds (s : TypeSet) : TypeExpr → Bool
  | .tag t => s.contains t
  | .union _ => false

/-- The union of a set and a list of types, on either side. -/
def orTypes (s : TypeSet) (xs : List TypeExpr) : TypeSet := ofTypes (s.types ++ xs)

/-- The intersection of a set and a list of types, on either side: the types
of the list that are members of the set. -/
def andTypes (s : TypeSet) (xs : List TypeExpr) : TypeSet := ofTypes (xs.filter s.holds)

/-- The members of a set that a list of types does not stand for. -/
def subTypes (s : TypeSet) (xs : List TypeExpr) : TypeSet :=
  let f := ofTypes xs
  s.filter (fun t => !f.contains t)

/-- The tags of a list of types that do not belong to a set. -/
def typesSub (xs : List TypeExpr) (s : TypeSet) : TypeSet :=
  (ofTypes xs).filter (fun t => !s.contains t)

/-- The tags that belong to exactly one of a set and a list of types, on
either side. -/
def xorTypes (s : TypeSet) (xs : List TypeExpr) : TypeSet :=
  let f := ofTypes xs
  (s.subTypes f.types).orTypes (f.subTypes s.types).types

/-- Whether no type of a list is, as it stands, a member of a set. -/
def isDisjointTypes (s : TypeSet) (xs : List TypeExpr) : Bool := !xs.any s.holds

end DispatchCoverage.TypeSet

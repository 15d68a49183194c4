import DispatchCoverage.TypeSet

/-!
# Signatures

A signature gives the type set of every parameter of an interface or an
implementation. It describes a region of argument tuples: those that have a
tag of the k-th set at every position k. The operations that combine two
signatures need the same number of parameters on both sides and report the
two signatures otherwise.
-/

namespace DispatchCoverage

/-- The type sets of the parameters, in order. -/
structure Signature where
  /-- One type set for every parameter. -/
  parameters : List TypeSet

/-- A parameter as a caller may give it. -/
inductive Parameter where
  /-- A type set, taken as it is. -/
  | set (s : TypeSet)
  /-- A single type, which stands for the set of its tags. -/
  | type (x : TypeExpr)
  /-- A list of types, which stands for the set of all their tags. -/
  | types (xs : List TypeExpr)

/-- The type set of a parameter. -/
def Parameter.toTypeSet : Parameter → TypeSet
  | set s => s
  | type x => .ofTypes [x]
  | types xs => .ofTypes xs

/-- Two signatures with a different number of parameters were combined. -/
structure ArityMismatch where
  /-- The signature whose operation was asked for. -/
  left : Signature
  /-- The signature it was combined with. -/
  right : Signature

namespace Signature

/-- A signature is determined by its parameters. -/
theorem parameters_injective {s t : Signature} (h : s.parameters = t.parameters) : s = t := by
  cases s; cases t; cases h; rfl

/-- Signatures are ordered by their first parameter that differs, a beginning
of a signature coming first. -/
instance : Ord Signature := ⟨compareOn parameters⟩

instance : Std.TransOrd Signature := inferInstanceAs (Std.TransCmp (compareOn parameters))

instance : Std.LawfulEqOrd Signature where
  toReflCmp := inferInstanceAs (Std.ReflCmp (compareOn parameters))
  eq_of_compare h := parameters_injective (Std.LawfulEqCmp.eq_of_compare h)

instance : DecidableEq Signature := fun _ _ => decidable_of_iff _ Std.compare_eq_iff_eq

end Signature

deriving instance DecidableEq for ArityMismatch

/-- Finite sets of signatures. -/
abbrev SignatureSet := Ascending Signature

namespace Signature

/-- The signature of parameters in any of the accepted forms. -/
def ofParameters (ps : List Parameter) : Signature := ⟨ps.map Parameter.toTypeSet⟩

/-- The number of parameters. -/
def arity (s : Signature) : Nat := s.parameters.length

/-- Whether some tuple of arguments matches: no position is empty. -/
def isInhabited (s : Signature) : Bool := s.parameters.all (fun p => !p.isEmpty)

/-- Whether some position accepts a tag, which does not mean that a tuple
matches. -/
def isPartiallyInhabited (s : Signature) : Bool := s.parameters.any (fun p => !p.isEmpty)

/-- The number of tags at all positions together. -/
def size (s : Signature) : Nat := s.parameters.foldr (fun p n => p.size + n) 0

/-- The written form of a signature: its sets in brackets. -/
def text (style : TextStyle) (s : Signature) : String :=
  style.lparen ++ style.sep.intercalate (s.parameters.map (TypeSet.text style)) ++ style.rparen

/-- The written form of a signature in the default style. -/
instance : ToString Signature := ⟨text {}⟩

end Signature

/-- The text that reports an arity mismatch. -/
def ArityMismatch.message (e : ArityMismatch) : String :=
  let plural := if e.left.arity = 1 then "" else "s"
  s!"Signature {e.left} takes {e.left.arity} parameter{plural}, but {e.right} takes {e.right.arity}."

namespace Signature

/-- Refuse to combine two signatures with a different number of parameters. -/
def checkArity (s t : Signature) : Except ArityMismatch Unit :=
  if s.arity = t.arity then .ok () else .error ⟨s, t⟩

/-- Whether two signatures of one arity have a common tag at every position. -/
def meets (s t : Signature) : Bool :=
  (s.parameters.zip t.parameters).all (fun (p, q) => p.meets q)

/-- The positionwise intersection of two signatures of one arity. -/
def meet (s t : Signature) : Signature := ⟨s.parameters.zipWith Ascending.inter t.parameters⟩

/-- What the second of two signatures of one arity fails to accept of the
first, position by position. -/
def excess (s t : Signature) : Signature := ⟨s.parameters.zipWith Ascending.diff t.parameters⟩

/-- Whether some tuple of arguments matches both signatures. -/
def overlaps (s t : Signature) : Except ArityMismatch Bool := do
  s.checkArity t
  return s.meets t

/-- The signature of the tuples that match both signatures. -/
def intersection (s t : Signature) : Except ArityMismatch Signature := do
  s.checkArity t
  return s.meet t

/-- Subtract the second signature at every position independently. The result
is not the region that only the first signature accepts: it holds, position by
position, the tags that the second one fails to accept. -/
def positionalDifference (s t : Signature) : Except ArityMismatch Signature := do
  s.checkArity t
  return s.excess t

/-- The position that an index addresses among n positions: from the front if
it is not negative, from the end if it is. -/
def position (n : Nat) (index : Int) : Option Nat :=
  if 0 ≤ index then
    if index < n then some index.toNat else none
  else if 0 ≤ index + n then some (index + n).toNat else none

/-- The signature with the set at one position taken from another signature. -/
def copyAt (other s : Signature) (k : Nat) : Signature :=
  match other.parameters[k]? with
  | some p => ⟨s.parameters.set k p⟩
  | none => s

/-- The signature with the sets at some positions taken from another one. -/
def copyFrom (other s : Signature) (positions : List Nat) : Signature :=
  positions.foldl (copyAt other) s

/-- Why a substitution could not be carried out. -/
inductive SubstitutionError where
  /-- The signatures differ in arity. -/
  | arity (mismatch : ArityMismatch)
  /-- An index addresses no position. -/
  | outOfRange (index : Int)

/-- The signature in which the sets at the addressed positions are taken from
the other signature. -/
def substitute (s : Signature) (indices : List Int) (other : Signature) :
    Except SubstitutionError Signature := do
  (s.checkArity other).mapError .arity
  let positions ← indices.mapM fun i =>
    match position s.arity i with
    | some k => .ok k
    | none => .error (.outOfRange i)
  return copyFrom other s positions

end Signature

end DispatchCoverage

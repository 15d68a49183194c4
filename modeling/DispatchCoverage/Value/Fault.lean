import DispatchCoverage.Solver
import DispatchCoverage.Value

/-!
# Faults of loosely typed operations

An operation on values of any kind can fail because a value is of the wrong
kind, because there is no such operation on it, or for a reason of its own. A
fault says which; the kind of a value is checked where the value is used.
-/

namespace DispatchCoverage

/-- Why an operation on loosely typed values failed. -/
inductive Fault where
  /-- A type could not be built. -/
  | type (cause : TypeFault)
  /-- Two signatures differ in arity. -/
  | arity (mismatch : ArityMismatch)
  /-- A check ended without a result. -/
  | solver (cause : SolverError)
  /-- A check was given no round. -/
  | noRounds
  /-- An operand is of the wrong kind, or there are too many or too few. -/
  | unsuitable
  /-- There is no such operation on a value of this kind. -/
  | noOperation
  /-- A tag was to be changed. -/
  | immutable (tag : Tag)
  /-- An index addresses no position. -/
  | outOfRange
  /-- A position does not fit into a word. -/
  | tooLarge
  /-- A value does not occur in a signature. -/
  | notFound
  /-- A value does not occur in a list. -/
  | notInList (value : Value)
  /-- A value does not occur in a tuple. -/
  | notInTuple
  /-- A text does not occur in another. -/
  | notInText
  /-- A slice has step zero. -/
  | zeroStep

/-- The text that reports why an operation failed, if there is one. -/
def Fault.message? : Fault → Option String
  | type cause => some cause.message
  | arity mismatch => some mismatch.message
  | solver cause => some cause.message
  | noRounds => some RoundBudget.refusal
  | immutable tag => some tag.immutableMessage
  | notInList value => some (value.render ++ " is not in list")
  | notInTuple => some "tuple.index(x): x not in tuple"
  | notInText => some "substring not found"
  | zeroStep => some "slice step cannot be zero"
  | _ => none

namespace Value

/-- The values that a value holds, if it can be listed. -/
def items (v : Value) : Except Fault (List Value) :=
  match v.items? with
  | some vs => .ok vs
  | .none => .error .unsuitable

/-- The integer that a value stands for. -/
def integer (v : Value) : Except Fault Int :=
  match v.integer? with
  | some i => .ok i
  | .none => .error .unsuitable

end Value

/-- The type that a value is. An altered alternation has to have nothing but
tags. -/
def TypeExpr.ofValue (v : Value) : Except Fault TypeExpr :=
  match v.asType?, v with
  | some x, _ => .ok x
  | none, .alteredUnion _ => .error .unsuitable
  | none, v => .error (.type (.notAType v))

/-- The types that some values are; the first that is none is reported. -/
def TypeExpr.ofValues (vs : List Value) : Except Fault (List TypeExpr) := vs.mapM ofValue

/-- The types in a value that can be listed. -/
def Value.toTypes (v : Value) : Except Fault (List TypeExpr) := do
  TypeExpr.ofValues (← v.items)

/-- The parameter that a value gives: a set, a single type, or a list of
types. -/
def Parameter.ofValue : Value → Except Fault Parameter
  | .set s => .ok (.set s)
  | .tag t => .ok (.type (.tag t))
  | .union u => .ok (.type (.union u))
  | .alteredUnion members => (TypeExpr.ofValue (.alteredUnion members)).map .type
  | v => v.toTypes.map .types

/-- The signature with parameters given by values. -/
def Signature.ofValues (vs : List Value) : Except Fault Signature :=
  (vs.mapM Parameter.ofValue).map ofParameters

end DispatchCoverage

import DispatchCoverage.Signature.Sequence
import DispatchCoverage.Text.Part
import DispatchCoverage.Value.Operators

/-!
# Loosely typed values as sequences

Lists, tuples, texts and signatures have their items in an order and can be read
by index and by slice, turned round, and searched. Sets have no order.
-/

namespace DispatchCoverage.Value

/-- The items of a value that has them in an order. -/
def sequence : Value → Except Fault (List Value)
  | set _ => .error .unsuitable
  | signatures _ => .error .unsuitable
  | alteredSignature parameters _ => sequence parameters
  | v => v.items

/-- The text made up of the texts among some values. -/
def joined (vs : List Value) : String :=
  String.join (vs.filterMap fun v => match v with
    | str s => some s
    | _ => Option.none)

/-- Items put together again: a part of a list is a list, a part of a text a
text, and any other part a tuple. -/
def reassemble (items : List Value) : Value → Value
  | list _ => list items
  | str _ => str (joined items)
  | alteredSignature parameters _ => reassemble items parameters
  | _ => tuple items

/-- The item at an index, which counts from the end if it is negative. -/
def get (v index : Value) : Except Fault Value := do
  let vs ← v.sequence
  match (Signature.position vs.length (← index.integer)).bind (vs[·]?) with
  | some item => return item
  | .none => throw .outOfRange

/-- A bound that may be left out. -/
def bound : Value → Except Fault (Option Int)
  | none => .ok Option.none
  | v => v.integer.map some

/-- The part of a value that a slice takes. The step is examined before the
bounds. -/
def slice (v start stop step : Value) : Except Fault Value := do
  let vs ← v.sequence
  let step ← step.bound
  if step = some 0 then throw .zeroStep
  match (Slice.mk (← start.bound) (← stop.bound) step).take? vs with
  | some items => return reassemble items v
  | .none => throw .zeroStep

/-- The items of a value in reverse order. A signature without parameters has
none, whatever holds them. -/
def reversed (v : Value) : Except Fault Value :=
  match v with
  | alteredSignature parameters _ => do
    if (← parameters.length) = 0 then return list []
    return list (← parameters.sequence).reverse
  | v => v.sequence.map fun vs => list vs.reverse

/-- The type set that a value equals, if there is one. -/
def asTypeSet? : Value → Option TypeSet
  | set s => some s
  | signatures ss => if ss.isEmpty then some ∅ else Option.none
  | _ => Option.none

/-- The first position of a value in a signature. A truth value as the first
bound is given back as it is if the search ends there. -/
def indexInSignature (s : Signature) (wanted start stop : Value) : Except Fault Value := do
  let first ← start.integer
  let last ← stop.bound
  match wanted.asTypeSet?.bind (s.indexOf? · first last) with
  | some k => return if start.equals (int k) then start else int k
  | .none => throw .notFound

/-- A bound counted from the front, where one before the front is moved there. -/
def fromFront (n : Nat) (bound : Int) : Int := if bound < 0 then max (bound + n) 0 else bound

/-- The first position of a value among some items within bounds. -/
def indexAmong? (vs : List Value) (wanted start stop : Value) : Except Fault (Option Nat) := do
  let first := fromFront vs.length (← start.integer)
  let last := fromFront vs.length (← stop.integer)
  return (List.range vs.length).find? fun k =>
    first ≤ (k : Int) && (k : Int) < last && (vs[k]?.map wanted.equals).getD false

/-- The part of a text within bounds; none if the first bound lies behind the
second or behind the text. -/
def within? (cs : List Char) (start stop : Value) : Except Fault (Option (Nat × List Char)) := do
  let first := fromFront cs.length ((← start.bound).getD 0)
  let last := min (fromFront cs.length ((← stop.bound).getD cs.length)) cs.length
  return if first ≤ last then some (first.toNat, (cs.take last.toNat).drop first.toNat)
    else Option.none

/-- The text that a value is. -/
def text : Value → Except Fault String
  | str s => .ok s
  | _ => .error .unsuitable

/-- The first place of a text in another within bounds. -/
def indexInText (whole : String) (part start stop : Value) : Except Fault Value := do
  let part ← part.text
  match ← within? whole.toList start stop with
  | some (first, cs) =>
    match Text.firstPlace? part.toList cs with
    | some k => return int (first + k)
    | .none => throw .notInText
  | .none => throw .notInText

/-- The number of occurrences of a text in another within bounds. -/
def countInText (whole : String) (part start stop : Value) : Except Fault Value := do
  let part ← part.text
  return int <| match ← within? whole.toList start stop with
    | some (_, cs) => Text.occurrences part.toList cs
    | .none => 0

/-- The number of items that equal a value. -/
def countAmong (vs : List Value) (wanted : Value) : Value :=
  int (vs.filter wanted.equals).length

end DispatchCoverage.Value

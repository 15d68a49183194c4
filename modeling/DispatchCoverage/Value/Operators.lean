import DispatchCoverage.Text.Part
import DispatchCoverage.TypeSet.Operators
import DispatchCoverage.Value.Bitwise
import DispatchCoverage.Value.Fault

/-!
# Operators on loosely typed values

An operator on a type set takes on the other side whatever can be listed; two
sets of signatures, two integers and two types have operators of their own. The
order relations compare sets by inclusion, texts by code points, and lists and
tuples at the first place that differs. All other operands are unsuitable.
-/

namespace DispatchCoverage.Value

/-- The result of an operation on two integers. -/
def onIntegers (f : Int → Int → Int) (x y : Value) : Except Fault Value := do
  return int (f (← x.integer) (← y.integer))

/-- The alternation of two types, or the union of a set with what can be
listed. -/
def or (x y : Value) : Except Fault Value :=
  match x.asType?, y.asType? with
  | some a, some b => .ok (.union (a.or b))
  | _, _ =>
    match x, y with
    | set s, set t => .ok (set (Ascending.union s t))
    | set s, v | v, set s => v.toTypes.map fun xs => set (s.orTypes xs)
    | signatures s, signatures t => .ok (signatures (Ascending.union s t))
    | bool a, bool b => .ok (bool (a || b))
    | _, _ => onIntegers Bitwise.or x y

/-- The members of what can be listed that a set holds as they stand. Some
values inside a list cannot be looked up. -/
def select (s : TypeSet) (v : Value) : Except Fault Value := do
  let vs ← v.items
  if vs.all canBeSought then return set (s.andTypes (vs.filterMap asType?)) else throw .unsuitable

/-- The intersection of a set with what can be listed. -/
def and (x y : Value) : Except Fault Value :=
  match x, y with
  | set s, v | v, set s => select s v
  | signatures s, signatures t => .ok (signatures (Ascending.inter s t))
  | bool a, bool b => .ok (bool (a && b))
  | _, _ => onIntegers Bitwise.and x y

/-- The difference of a set and what can be listed, on either side. A set of
signatures on the right has no tags to take away. -/
def sub (x y : Value) : Except Fault Value :=
  match x, y with
  | set s, set t => .ok (set (Ascending.diff s t))
  | set s, signatures _ => .ok (set s)
  | set s, v => v.toTypes.map fun xs => set (s.subTypes xs)
  | v, set s => v.toTypes.map fun xs => set (TypeSet.typesSub xs s)
  | signatures s, signatures t => .ok (signatures (Ascending.diff s t))
  | _, _ => onIntegers (· - ·) x y

/-- The symmetric difference of a set and what can be listed. -/
def xor (x y : Value) : Except Fault Value :=
  match x, y with
  | set s, v | v, set s => v.toTypes.map fun xs => set (s.xorTypes xs)
  | signatures s, signatures t =>
    .ok (signatures (Ascending.union (Ascending.diff s t) (Ascending.diff t s)))
  | bool a, bool b => .ok (bool (a != b))
  | _, _ => onIntegers Bitwise.xor x y

/-- Whether a set holds none of the listed values as they stand. Looking stops
at the first value that the set holds. -/
def disjointFrom (s : TypeSet) : List Value → Except Fault Bool
  | [] => .ok true
  | v :: vs =>
    if v.canBeSought then
      if (v.asType?.map s.holds).getD false then .ok false else disjointFrom s vs
    else .error .unsuitable

/-- Whether a set holds none of the values in what can be listed. -/
def isDisjoint (s : TypeSet) (v : Value) : Except Fault Bool := do
  disjointFrom s (← v.items)

/-- Whether a set holds a value. Some values cannot be looked up. -/
def heldBy (s : TypeSet) (v : Value) : Except Fault Bool :=
  if v.canBeSought then .ok ((v.asType?.map s.holds).getD false) else .error .unsuitable

/-- Whether a set of signatures holds a value. -/
def heldBySignatures (ss : SignatureSet) (v : Value) : Except Fault Bool :=
  match v with
  | signature s => .ok (ss.contains s)
  | v =>
    if v.canBeSought then .ok (ss.toList.any fun s => v.equals (signature s))
    else .error .unsuitable

/-- Whether a value occurs in another: in a text as a part, in a set by
look-up, in a list, a tuple or a signature by comparison. -/
def isIn (v container : Value) : Except Fault Bool :=
  match container, v with
  | str whole, str part => .ok (Text.occursIn part.toList whole.toList)
  | str _, _ => .error .unsuitable
  | set s, v => heldBy s v
  | signatures ss, v => heldBySignatures ss v
  | list vs, v => .ok (vs.any v.equals)
  | tuple vs, v => .ok (vs.any v.equals)
  | signature s, v => .ok (s.parameters.any fun p => v.equals (set p))
  | alteredSignature parameters _, v => parameters.items.map fun vs => vs.any v.equals
  | _, _ => .error .unsuitable

mutual

/-- Whether a value precedes another, or also whether it equals it. -/
def precedes (strict : Bool) : Value → Value → Except Fault Bool
  | set s, set t => .ok (Ascending.subset s t && (!strict || s != t))
  | signatures s, signatures t => .ok (Ascending.subset s t && (!strict || s != t))
  | set s, signatures t => .ok (s.isEmpty && (!strict || !t.isEmpty))
  | signatures s, set t => .ok (s.isEmpty && (!strict || !t.isEmpty))
  | str s, str t => .ok (if strict then (compare s t).isLT else (compare s t).isLE)
  | list vs, list ws => precedesAll strict vs ws
  | tuple vs, tuple ws => precedesAll strict vs ws
  | v, w =>
    match v.integer?, w.integer? with
    | some i, some j => .ok (if strict then i < j else i ≤ j)
    | _, _ => .error .unsuitable

/-- The same for lists, which are compared at the first place that differs; a
beginning of a list precedes the list. -/
def precedesAll (strict : Bool) : List Value → List Value → Except Fault Bool
  | [], [] => .ok (!strict)
  | [], _ :: _ => .ok true
  | _ :: _, [] => .ok false
  | v :: vs, w :: ws => if v.equals w then precedesAll strict vs ws else precedes strict v w

end

/-- Whether a value precedes or equals another; for sets, whether it is
included in the other. -/
def le (x y : Value) : Except Fault Bool := precedes false x y

/-- Whether a value precedes another; for sets, whether it is included in the
other and differs from it. -/
def lt (x y : Value) : Except Fault Bool := precedes true x y

/-- The number of values in a value. -/
def length : Value → Except Fault Nat
  | union u => .ok u.size
  | alteredUnion members => length members
  | alteredSignature parameters _ => length parameters
  | v => v.items.map List.length

/-- Whether there are no values in a value, or no saying how many. -/
def isVoid (v : Value) : Bool :=
  match v.length with
  | .ok n => n == 0
  | .error _ => true

/-- Whether a value counts as true: what is absent, zero or empty does not. -/
def truth : Value → Bool
  | none => false
  | bool b => b
  | int i => i != 0
  | str s => s != ""
  | list vs => !vs.isEmpty
  | tuple vs => !vs.isEmpty
  | tag _ => true
  | union u => !u.members.isEmpty
  | set s => !s.isEmpty
  | signature s => !s.parameters.isEmpty
  | signatures ss => !ss.isEmpty
  | alteredUnion members => !members.isVoid
  | alteredSignature parameters _ => !parameters.isVoid

/-- Whether a value counts as true, which an altered one tells by its
length. -/
def checkedTruth : Value → Except Fault Bool
  | alteredUnion members => members.length.map (· != 0)
  | alteredSignature parameters _ => parameters.length.map (· != 0)
  | v => .ok v.truth

/-- Make sure that an alternation can be compared with another one: its members
have to be keys. -/
def checkMembers : Value → Except Fault Unit
  | alteredUnion members => if members.holdsKeys then .ok () else .error .unsuitable
  | _ => .ok ()

/-- Whether two values are the same. Two alternations are compared as sets of
their members. -/
def checkedEquals (x y : Value) : Except Fault Bool := do
  match x, y with
  | alteredUnion _, alteredUnion _ | alteredUnion _, union _ | union _, alteredUnion _ =>
    x.checkMembers
    y.checkMembers
  | _, _ => pure ()
  return x.equals y

end DispatchCoverage.Value

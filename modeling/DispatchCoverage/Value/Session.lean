import DispatchCoverage.Value.Call

/-!
# Values that are kept

A session keeps values under names, so that later calls can refer to them.
Lists, tuples, alternations and signatures are kept as objects, which may be
held at several places at once: a list that is added to, or an alternation or a
signature whose property is changed, shows the change at all of them.
-/

namespace DispatchCoverage

/-- A value as a session keeps it. -/
inductive Kept where
  /-- A value that never changes. -/
  | value (v : Value)
  /-- The object with a number. -/
  | object (number : Nat)

/-- What may be held at several places. -/
inductive SharedObject where
  /-- A list of what is kept. -/
  | list (items : List Kept)
  /-- A tuple of what is kept. -/
  | tuple (items : List Kept)
  /-- An alternation with the tags that it was made of. -/
  | union (u : TypeUnion)
  /-- A signature with the sets that it was made of. -/
  | signature (s : Signature)
  /-- An alternation with other members. -/
  | alteredUnion (members : Kept)
  /-- A signature with other parameters or another fingerprint. -/
  | alteredSignature (parameters : Kept) (fingerprint : Value)

namespace SharedObject

/-- The items of a list or a tuple. -/
def items? : SharedObject → Option (List Kept)
  | list items => some items
  | tuple items => some items
  | _ => none

/-- The fingerprint that a signature is given: an integer, or nothing that can
be one. -/
def fingerprintOf (v : Value) : Value :=
  match v.integer? with
  | some i => .int i
  | none => .none

/-- An object with another value of a property. Only the members of an
alternation, and the parameters and the fingerprint of a signature, matter to
any operation. -/
def changed (object : SharedObject) (property : String) (new : Kept) (shown : Value) :
    SharedObject :=
  match object, property with
  | union _, "members" => alteredUnion new
  | alteredUnion _, "members" => alteredUnion new
  | signature s, "parameters" => alteredSignature new (Value.parametersOf s)
  | alteredSignature _ fingerprint, "parameters" => alteredSignature new fingerprint
  | signature s, "_hash" => alteredSignature (.value (Value.parametersOf s)) (fingerprintOf shown)
  | alteredSignature parameters _, "_hash" => alteredSignature parameters (fingerprintOf shown)
  | object, _ => object

end SharedObject

/-- The values that are kept. -/
structure Session where
  /-- The objects, by number. -/
  objects : List SharedObject := []
  /-- What the names refer to, latest first. -/
  named : List (String × Kept) := []

namespace Session

/-- The value with some members: an alternation as it is made, if they are the
different tags in a tuple or a list. -/
def unionOf (members : Value) : Value :=
  match members, (Value.alteredUnion members).alternatives? with
  | .list _, some ts | .tuple _, some ts =>
    if h : ts.Nodup then .union ⟨ts, h⟩ else .alteredUnion members
  | _, _ => .alteredUnion members

/-- The value that is kept, where objects are followed a number of times. -/
def viewWithin (session : Session) : Nat → Kept → Value
  | _, .value v => v
  | 0, .object _ => .none
  | n + 1, .object k =>
    match session.objects[k]? with
    | some (.list items) => .list (items.map fun x => session.viewWithin n x)
    | some (.tuple items) => .tuple (items.map fun x => session.viewWithin n x)
    | some (.union u) => .union u
    | some (.signature s) => .signature s
    | some (.alteredUnion members) => unionOf (session.viewWithin n members)
    | some (.alteredSignature parameters fingerprint) =>
      .alteredSignature (session.viewWithin n parameters) fingerprint
    | none => .none

/-- The value that is kept. No object lies deeper than there are objects. -/
def view (session : Session) (x : Kept) : Value := session.viewWithin session.objects.length x

/-- A value that never changes is seen as it is. -/
@[simp] theorem view_value (session : Session) (v : Value) : session.view (.value v) = v := by
  cases h : session.objects.length <;> simp [view, viewWithin]

/-- What a name refers to. -/
def named? (session : Session) (name : String) : Option Kept :=
  (session.named.find? fun entry => entry.1 == name).map Prod.snd

/-- Let a name refer to what is kept. -/
def bind (session : Session) (name : String) (x : Kept) : Session :=
  { session with named := (name, x) :: session.named }

/-- A name refers to what it was last bound to. -/
@[simp] theorem named?_bind (session : Session) (name : String) (x : Kept) :
    (session.bind name x).named? name = some x := by
  simp [named?, bind]

/-- Keep another object. -/
def add {m : Type → Type} [Monad m] (object : SharedObject) : StateT Session m Kept :=
  modifyGet fun session =>
    (.object session.objects.length, { session with objects := session.objects ++ [object] })

mutual

/-- Keep a value, where something may stand for its integers. -/
def keepWith {m : Type → Type} [Monad m] (integer : Int → Kept) : Value → StateT Session m Kept
  | .int i => return integer i
  | .list vs => do add (.list (← keepAllWith integer vs))
  | .tuple vs => do add (.tuple (← keepAllWith integer vs))
  | .union u => add (.union u)
  | .signature s => add (.signature s)
  | .alteredUnion members => do add (.alteredUnion (← keepWith integer members))
  | .alteredSignature parameters fingerprint => do
    add (.alteredSignature (← keepWith integer parameters) fingerprint)
  | v => return .value v

/-- Keep several values, in order. -/
def keepAllWith {m : Type → Type} [Monad m] (integer : Int → Kept) :
    List Value → StateT Session m (List Kept)
  | [] => return []
  | v :: vs => do
    let x ← keepWith integer v
    return x :: (← keepAllWith integer vs)

end

/-- Keep a value. -/
def keep {m : Type → Type} [Monad m] (v : Value) : StateT Session m Kept :=
  keepWith (fun i => .value (.int i)) v

/-- The number of an object and the object. -/
def object? (session : Session) : Kept → Option (Nat × SharedObject)
  | .value _ => none
  | .object k => session.objects[k]?.map (k, ·)

/-- Put another object in the place of one. -/
def replace (session : Session) (number : Nat) (object : SharedObject) : Session :=
  { session with objects := session.objects.set number object }

/-- The items of a list with another one inserted before a position, which
counts from the end if it is negative; too far off, it is moved to the nearer
end. -/
def insertAt (items : List Kept) (position : Int) (new : Kept) : List Kept :=
  items.insertIdx (min (Value.fromFront items.length position).toNat items.length) new

/-- An operation that can fail and that can change what is kept. -/
abbrev Operation := StateT Session (Except Fault) Kept

/-- The result of an operation that only picks and arranges the items of a list
or a tuple. It is found by arranging the positions of the items. -/
def arrange (name : String) (object : SharedObject) (items : List Kept) (args : List Value)
    (options : NamedValues) : Operation := do
  let positions := (List.range items.length).map fun k : Nat => Value.int k
  let whole := match object with
    | .list _ => Value.list positions
    | _ => Value.tuple positions
  let arranged ← Value.call name (whole :: args) options
  keepWith (fun i => items[i.toNat]?.getD (.value (.int i))) arranged

/-- The names of the operations that pick and arrange items. -/
def arrangements : List String := ["get", "slice", "reversed", "powerset"]

/-- Call an operation on an object, where the result on the value of the object
is known. -/
def callOnObject (name : String) (number : Nat) (object : SharedObject) (args : List Kept)
    (options : NamedValues) (result : Value) : Operation := do
  let session ← get
  match name, object, args with
  | "members", .alteredUnion members, _ => return members
  | "parameters", .alteredSignature parameters _, _ => return parameters
  | "setattr", object, [property, new] =>
    if let .str property := session.view property then
      set (session.replace number (object.changed property new (session.view new)))
    return .value .none
  | "insert", .list items, [position, new] =>
    let position := (session.view position).integer?.getD 0
    set (session.replace number (.list (insertAt items position new)))
    return .value .none
  | name, object, args =>
    match object.items? with
    | some items =>
      if arrangements.contains name then
        arrange name object items (args.map session.view) options
      else keep result
    | none => keep result

/-- Call an operation on what is kept, and keep the result. Where the result is
a value that is already kept, it is not kept anew. -/
def call (name : String) (args : List Kept) (options : NamedValues := []) : Operation := do
  let session ← get
  let result ← Value.call name (args.map session.view) options
  match name, args with
  | "make", [x] => return x
  | name, x :: rest =>
    match session.object? x with
    | some (number, object) => callOnObject name number object rest options result
    | none => keep result
  | _, [] => keep result

end Session

end DispatchCoverage

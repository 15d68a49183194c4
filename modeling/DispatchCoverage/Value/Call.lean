import DispatchCoverage.Subsets
import DispatchCoverage.Surface.Token
import DispatchCoverage.Value.Arguments
import DispatchCoverage.Value.Sequence
import DispatchCoverage.Value.Styled

/-!
# Operations called by name

An operation is called by its name on values of any kind. Some operations are
there for every kind of value and refuse unsuitable ones; the others belong to
the kind of the first value, and a kind that does not have an operation is told
apart from arguments that do not suit it.
-/

namespace DispatchCoverage.Value

/-- The parameter of an operation that combines a value with another one. -/
def otherParameter : List Formal := [⟨"other", Option.none⟩]

/-- The parameters that style a written form, with the default style. -/
def styleParameters : List Formal :=
  let style : TextStyle := {}
  [⟨"sep", some (str style.sep)⟩, ⟨"lparen", some (str style.lparen)⟩,
    ⟨"rparen", some (str style.rparen)⟩, ⟨"alt", some (str style.alt)⟩]

/-- The parameters of a search between two bounds, the first of which is zero
unless it is given. -/
def searchParameters (stop : Value) : List Formal :=
  [⟨"value", Option.none⟩, ⟨"start", some (int 0)⟩, ⟨"stop", some stop⟩]

/-- The one argument of an operation. -/
def single (ps : List Formal) (args : List Value) (named : NamedValues) : Except Fault Value := do
  match ← bindArguments ps args named with
  | [v] => return v
  | _ => throw .unsuitable

/-- The set that another argument is. -/
def otherSet (args : List Value) (named : NamedValues) : Except Fault TypeSet := do
  match ← single otherParameter args named with
  | set s => return s
  | _ => throw .noOperation

/-- The signature that a value is. An altered one has to list nothing but
sets. -/
def asSignature (v : Value) : Except Fault Signature :=
  match v.asSignature?, v with
  | some s, _ => .ok s
  | .none, alteredSignature parameters _ => parameters.items.bind fun _ => .error .noOperation
  | .none, _ => .error .noOperation

/-- The number of parameters of a signature. -/
def parameterCount : Value → Except Fault Nat
  | signature s => .ok s.arity
  | alteredSignature parameters _ => parameters.length
  | _ => .error .noOperation

/-- Make sure that two signatures have the same number of parameters. -/
def checkArity (v other : Value) : Except Fault Value := do
  if (← v.parameterCount) = (← other.parameterCount) then return none
  let s ← v.asSignature
  let t ← other.asSignature
  ((s.checkArity t).map fun _ => none).mapError .arity

/-- The signature that another argument is. -/
def otherSignature (args : List Value) (named : NamedValues) : Except Fault Signature := do
  (← single otherParameter args named).asSignature

/-- The written form of a value in the style that arguments ask for. -/
def callText (v : Value) (args : List Value) (named : NamedValues) : Except Fault Value := do
  match ← bindArguments styleParameters args named with
  | [sep, lparen, rparen, alt] => v.styledText ⟨sep, lparen, rparen, alt⟩
  | _ => throw .unsuitable

/-- Operations on a tag. -/
def callOnTag (t : Tag) (name : String) (args : List Value) (named : NamedValues) :
    Except Fault Value :=
  match name with
  | "basic" => .ok (bool t.isAtom)
  | "name" => .ok (str t.name.text)
  | "arguments" => .ok (tuple (t.arguments.map tag))
  | "tags" => .ok (list [tag t])
  | "nesting" => (bindArguments [] args named).map fun _ => int t.nesting
  | "text" => callText (tag t) args named
  | _ => .error .noOperation

/-- Operations on an alternation. -/
def callOnUnion (u : TypeUnion) (name : String) (args : List Value) (named : NamedValues) :
    Except Fault Value :=
  match name with
  | "members" => .ok (tuple (u.members.map tag))
  | "tags" => .ok (list (u.members.map tag))
  | "text" => callText (union u) args named
  | _ => .error .noOperation

/-- Operations on an alternation with other members. -/
def callOnAlteredUnion (members : Value) (name : String) (args : List Value)
    (named : NamedValues) : Except Fault Value :=
  match name with
  | "members" => .ok members
  | "tags" => members.items.map list
  | "text" => callText (alteredUnion members) args named
  | _ => .error .noOperation

/-- Operations on a type set. -/
def callOnSet (s : TypeSet) (name : String) (args : List Value) (named : NamedValues) :
    Except Fault Value := do
  match name with
  | "is_empty" => return bool s.isEmpty
  | "contains" =>
    return bool (← heldBy s (← single [⟨"tag", Option.none⟩] args named))
  | "intersects" => return bool (s.meets (← otherSet args named))
  | "intersection" => return set (s.inter (← otherSet args named))
  | "difference" => return set (s.diff (← otherSet args named))
  | "union" => return set (s.union (← otherSet args named))
  | "insert" =>
    let x ← TypeExpr.ofValue (← single [⟨"new", Option.none⟩] args named)
    return set (TypeSet.insertType x s)
  | "isdisjoint" => return bool (← isDisjoint s (← single otherParameter args named))
  | "text" => callText (set s) args named
  | _ => throw .noOperation

/-- The integers in front of the first value that is none. -/
def leadingIntegers : List Value → List Int
  | [] => []
  | v :: vs =>
    match v.integer? with
    | some i => i :: leadingIntegers vs
    | .none => []

/-- The signature with the sets at addressed positions taken from another one.
The arities are compared first, and the first position that is no index of one
is reported. -/
def substitute (s : Signature) (positions other : Value) : Except Fault Value := do
  let t ← other.asSignature
  (s.checkArity t).mapError .arity
  let vs ← positions.items
  let indices := leadingIntegers vs
  match s.substitute indices t with
  | .error (.arity mismatch) => throw (.arity mismatch)
  | .error (.outOfRange _) => throw .outOfRange
  | .ok u => if indices.length = vs.length then return signature u else throw .unsuitable

/-- Operations on a signature. -/
def callOnSignature (s : Signature) (name : String) (args : List Value) (named : NamedValues) :
    Except Fault Value := do
  match name with
  | "parameters" => return tuple (s.parameters.map set)
  | "arity" => return int s.arity
  | "is_inhabited" => return bool s.isInhabited
  | "is_partially_inhabited" => return bool s.isPartiallyInhabited
  | "check_arity" => (signature s).checkArity (← single otherParameter args named)
  | "overlaps" => ((s.overlaps (← otherSignature args named)).map bool).mapError .arity
  | "intersection" =>
    ((s.intersection (← otherSignature args named)).map signature).mapError .arity
  | "positional_difference" =>
    ((s.positionalDifference (← otherSignature args named)).map signature).mapError .arity
  | "substitute" =>
    match ← bindArguments (⟨"positions", Option.none⟩ :: otherParameter) args named with
    | [positions, other] => substitute s positions other
    | _ => throw .unsuitable
  | "is_satisfied_by" =>
    let (given, options) := named.partition ["implementations"]
    let implementations ← single [⟨"implementations", Option.none⟩] args given
    return signatures (← checkCompleteness (signature s) implementations options)
  | "index" =>
    match ← bindArguments (searchParameters none) args named with
    | [wanted, start, stop] => indexInSignature s wanted start stop
    | _ => throw .unsuitable
  | "count" =>
    return countAmong (s.parameters.map set) (← single [⟨"value", Option.none⟩] args named)
  | "text" => callText (signature s) args named
  | _ => throw .noOperation

/-- Operations on a signature with other parameters or another fingerprint. -/
def callOnAlteredSignature (parameters fingerprint : Value) (name : String) (args : List Value)
    (named : NamedValues) : Except Fault Value := do
  let v := alteredSignature parameters fingerprint
  match name with
  | "parameters" => return parameters
  | "arity" => return int (← parameters.length)
  | "count" =>
    return countAmong (← parameters.items) (← single [⟨"value", Option.none⟩] args named)
  | "check_arity" => v.checkArity (← single otherParameter args named)
  | "text" => callText v args named
  | _ => callOnSignature (← v.asSignature) name args named

/-- Operations on a list or a tuple; a list can also be added to, which shows in
the list itself only. -/
def callOnItems (v : Value) (vs : List Value) (name : String) (args : List Value) :
    Except Fault Value := do
  match name, v with
  | "index", _ =>
    match ← bindArguments (searchParameters (int vs.length)) args [] with
    | [wanted, start, stop] =>
      match ← indexAmong? vs wanted start stop, v with
      | some k, _ => return int k
      | .none, list _ => throw (.notInList wanted)
      | .none, _ => throw .notInTuple
    | _ => throw .unsuitable
  | "count", _ => return countAmong vs (← single otherParameter args [])
  | "insert", list _ =>
    match args with
    | [index, _] => do
      if fitsWord (← index.integer) then return none else throw .tooLarge
    | _ => throw .unsuitable
  | _, _ => throw .noOperation

/-- Operations on a text. -/
def callOnText (s : String) (name : String) (args : List Value) : Except Fault Value := do
  let parameters : List Formal :=
    [⟨"part", Option.none⟩, ⟨"start", some none⟩, ⟨"stop", some none⟩]
  match name with
  | "index" =>
    match ← bindArguments parameters args [] with
    | [part, start, stop] => indexInText s part start stop
    | _ => throw .unsuitable
  | "count" =>
    match ← bindArguments parameters args [] with
    | [part, start, stop] => countInText s part start stop
    | _ => throw .unsuitable
  | _ => throw .noOperation

/-- The keys that a value lists. -/
def keys (v : Value) : Except Fault (List Value) := do
  let vs ← v.items
  if areKeys vs then return vs else throw .unsuitable

/-- Operations on a set of signatures, which take any number of lists of keys;
a union can take signatures only. -/
def callOnSignatures (ss : SignatureSet) (name : String) (args : List Value) :
    Except Fault Value := do
  match name with
  | "union" =>
    let more ← args.mapM fun v => do (← v.keys).mapM fun key =>
      match key with
      | signature s => .ok s
      | _ => .error .unsuitable
    return signatures (Ascending.ofList (ss.toList ++ more.flatten))
  | "intersection" =>
    let lists ← args.mapM keys
    return signatures (ss.filter fun s => lists.all (fun vs => vs.any (signature s).equals))
  | "difference" =>
    let lists ← args.mapM keys
    return signatures (ss.filter fun s => !lists.any (fun vs => vs.any (signature s).equals))
  | "isdisjoint" =>
    let vs ← (← single otherParameter args []).keys
    return bool (!ss.toList.any fun s => vs.any (signature s).equals)
  | _ => throw .noOperation

/-- Operations that belong to the kind of a value. -/
def callOn (v : Value) (name : String) (args : List Value) (named : NamedValues) :
    Except Fault Value :=
  match v with
  | tag t => callOnTag t name args named
  | union u => callOnUnion u name args named
  | set s => callOnSet s name args named
  | signature s => callOnSignature s name args named
  | signatures ss => callOnSignatures ss name args
  | alteredUnion members => callOnAlteredUnion members name args named
  | alteredSignature parameters fingerprint =>
    callOnAlteredSignature parameters fingerprint name args named
  | list vs => callOnItems v vs name args
  | tuple vs => callOnItems v vs name args
  | str s => callOnText s name args
  | _ => .error .noOperation

/-- Apply a value, which has to be a tag, to arguments. -/
def apply (v : Value) (args : List Value) : Except Fault Value :=
  match v with
  | tag t => ((t.applyValues args).map tag).mapError .type
  | _ => .error .unsuitable

/-- The names of the properties of a value that can be changed. -/
def changeable : Value → List String
  | set _ => ["_elements", "_digest"]
  | signature _ => ["parameters", "_hash"]
  | alteredSignature _ _ => ["parameters", "_hash"]
  | _ => []

/-- Make sure that a property of a value can be changed. Alternations take any
property; tags never change. -/
def checkChange (v property : Value) : Except Fault Unit := do
  let property ← property.text
  match v with
  | tag t => throw (.immutable t)
  | union _ => return
  | alteredUnion _ => return
  | v => if v.changeable.contains property then return else throw .noOperation

/-- The subsets of what can be listed, from small to large. -/
def powerset (v : Value) : Except Fault Value := v.items.map fun vs => list ((subsets vs).map tuple)

/-- The tokens of a text. Special characters that are no text matter as soon as
there is a character to look up among them. -/
def tokens (text specials : Value) : Except Fault Value :=
  match text, specials with
  | str s, str specials => .ok (list ((Surface.tokenize s specials).map str))
  | str s, _ =>
    if (Surface.tokenize s "").isEmpty then .ok (list []) else .error .noOperation
  | _, _ => .error .noOperation

/-- An operation on the arguments of a call. -/
abbrev Operation := List Value → Except Fault Value

/-- The written form of a value in the default style, if it is an altered one,
and another form of all other values. -/
def shown (other : Value → String) (v : Value) : Except Fault Value :=
  match v with
  | alteredUnion _ => callText v [] []
  | alteredSignature _ _ => callText v [] []
  | v => .ok (str (other v))

/-- An operation on one value. -/
def unary (f : Value → Except Fault Value) : Operation
  | [x] => f x
  | _ => .error .unsuitable

/-- An operation on two values. -/
def binary (f : Value → Value → Except Fault Value) : Operation
  | [x, y] => f x y
  | _ => .error .unsuitable

/-- A question about two values. -/
def relation (f : Value → Value → Except Fault Bool) : Operation :=
  binary fun x y => (f x y).map bool

/-- Take a slice of a value. -/
def callSlice : Operation
  | [x, start, stop, step] => x.slice start stop step
  | _ => .error .unsuitable

/-- Apply a value to the others. -/
def callApply : Operation
  | x :: args => x.apply args
  | _ => .error .unsuitable

/-- Change a property of a value, which shows only where the value is kept. -/
def callChange : Operation
  | [x, property, _] => (x.checkChange property).map fun _ => none
  | _ => .error .unsuitable

/-- Split a text into tokens. -/
def callTokens : Operation
  | [x] => tokens x (str Surface.separators)
  | [x, specials] => tokens x specials
  | _ => .error .unsuitable

/-- Check the completeness of an interface. -/
def callCheck (named : NamedValues) (args : List Value) : Except Fault Value := do
  let names := ["interface", "implementations"]
  let (given, options) := named.partition names
  match ← bindArguments (names.map fun name => ⟨name, Option.none⟩) args given with
  | [interface, implementations] =>
    return signatures (← checkCompleteness interface implementations options)
  | _ => throw .unsuitable

/-- Report an uninhabited residual. -/
def callResidualText : Operation
  | [s, implementation, residual] => .ok (str (residualText s implementation residual))
  | _ => .error .unsuitable

/-- Report that a budget was used up. -/
def callBudgetText : Operation
  | [interface, rounds, leaves, frontier] => (budgetText interface rounds leaves frontier).map str
  | _ => .error .unsuitable

/-- The operation of a name that is there for values of all kinds. -/
def common? (name : String) (named : NamedValues) : Option Operation :=
  match name with
  | "make" => some (unary .ok)
  | "str" => some (unary (shown toText))
  | "repr" => some (unary (shown render))
  | "len" => some (unary fun x => x.length.map fun n => int n)
  | "bool" => some (unary fun x => x.checkedTruth.map bool)
  | "eq" => some (relation checkedEquals)
  | "ne" => some (relation fun x y => (checkedEquals x y).map Bool.not)
  | "same_hash" => some (relation sharesFingerprint)
  | "in" => some (relation isIn)
  | "le" => some (relation le)
  | "lt" => some (relation lt)
  | "ge" => some (relation fun x y => y.le x)
  | "gt" => some (relation fun x y => y.lt x)
  | "and" => some (binary and)
  | "or" => some (binary or)
  | "sub" => some (binary sub)
  | "xor" => some (binary xor)
  | "get" => some (binary get)
  | "slice" => some callSlice
  | "reversed" => some (unary reversed)
  | "apply" => some callApply
  | "setattr" => some callChange
  | "powerset" => some (unary powerset)
  | "tokenize" => some callTokens
  | "check_completeness" => some (callCheck named)
  | "invariant_text" => some callResidualText
  | "budget_text" => some callBudgetText
  | _ => Option.none

/-- Call an operation on values. -/
def call (name : String) (args : List Value) (named : NamedValues := []) : Except Fault Value :=
  match common? name named, args with
  | some operation, _ => operation args
  | .none, v :: args => v.callOn name args named
  | .none, [] => .error .unsuitable

end DispatchCoverage.Value

import DispatchCoverage.Signature
import DispatchCoverage.Text.Quoted

/-!
# Loosely typed values

Callers that build tags, alternations, sets and signatures from unchecked
input hand in values of any kind. A value is checked where it is used: what is
not a type, not a list of types or not a name is refused with an error that
shows the value in its quoted form. Alternations and signatures may have been
altered, so that they hold a value of any kind in the place of their tags or
sets.
-/

namespace DispatchCoverage

/-- A value of any kind that a caller may hand in. -/
inductive Value where
  /-- The absent value. -/
  | none
  /-- A truth value. -/
  | bool (b : Bool)
  /-- An integer. -/
  | int (i : Int)
  /-- A text. -/
  | str (s : String)
  /-- A list of values. -/
  | list (vs : List Value)
  /-- A tuple of values. -/
  | tuple (vs : List Value)
  /-- A type tag. -/
  | tag (t : Tag)
  /-- An alternation of tags. -/
  | union (u : TypeUnion)
  /-- A type set. -/
  | set (s : TypeSet)
  /-- A signature. -/
  | signature (s : Signature)
  /-- A set of signatures, as a check of completeness gives it. -/
  | signatures (ss : SignatureSet)
  /-- An alternation with other members than it was made of. -/
  | alteredUnion (members : Value)
  /-- A signature with other parameters than it was made of, which keeps the
  fingerprint that it had, or with another fingerprint. -/
  | alteredSignature (parameters fingerprint : Value)

namespace Value

instance : Inhabited Value := ⟨none⟩

/-- The form of a tuple with items in some forms: a single item has a comma
behind it. -/
def tupleText : List String → String
  | [item] => "(" ++ item ++ ",)"
  | items => "(" ++ ", ".intercalate items ++ ")"

/-- The form of a set of signatures: signs of a set around its members, or the
word for the empty set. -/
def signaturesText (ss : SignatureSet) : String :=
  if ss.isEmpty then "set()"
  else "\x7b" ++ ", ".intercalate (ss.toList.map (Signature.text {})) ++ "\x7d"

mutual

/-- The form in which a value is shown in an error. -/
def render : Value → String
  | none => "None"
  | bool b => if b then "True" else "False"
  | int i => toString i
  | str s => Text.quoted s
  | list vs => "[" ++ ", ".intercalate (renderAll vs) ++ "]"
  | tuple vs => tupleText (renderAll vs)
  | tag t => t.text {}
  | union u => u.text {}
  | set s => TypeSet.text {} s
  | signature s => s.text {}
  | signatures ss => signaturesText ss
  | alteredUnion members =>
    if (renderItems members).isEmpty then "⊥" else " | ".intercalate (renderItems members)
  | alteredSignature parameters _ => "(" ++ ", ".intercalate (renderItems parameters) ++ ")"

/-- The forms of several values, in order. -/
def renderAll : List Value → List String
  | [] => []
  | v :: vs => render v :: renderAll vs

/-- The forms of the values that a value holds. -/
def renderItems : Value → List String
  | list vs => renderAll vs
  | tuple vs => renderAll vs
  | set s => s.toList.map (Tag.text {})
  | signature s => s.parameters.map (TypeSet.text {})
  | signatures ss => ss.toList.map (Signature.text {})
  | alteredSignature parameters _ => renderItems parameters
  | _ => []

end

/-- The text of a value: a text stands for itself. -/
def toText : Value → String
  | str s => s
  | v => v.render

/-- The values that a value holds, if it can be listed: the members of a list,
a tuple or a set, the characters of a text, the parameters of a signature. -/
def items? : Value → Option (List Value)
  | str s => some (s.toList.map fun c => str c.toString)
  | list vs => some vs
  | tuple vs => some vs
  | set s => some (s.toList.map tag)
  | signature s => some (s.parameters.map set)
  | signatures ss => some (ss.toList.map signature)
  | alteredSignature parameters _ => items? parameters
  | _ => Option.none

/-- The tag that a value is. -/
def asTag? : Value → Option Tag
  | tag t => some t
  | _ => Option.none

/-- The set that a value is. -/
def asSet? : Value → Option TypeSet
  | set s => some s
  | _ => Option.none

/-- The tags of an alternation, if it has nothing but tags. -/
def alternatives? : Value → Option (List Tag)
  | union u => some u.members
  | alteredUnion members => members.items?.bind (·.mapM asTag?)
  | _ => Option.none

/-- The sets of a signature, if it has nothing but sets. -/
def sets? : Value → Option (List TypeSet)
  | signature s => some s.parameters
  | alteredSignature parameters _ => parameters.items?.bind (·.mapM asSet?)
  | _ => Option.none

/-- The tuple of the sets of a signature. -/
def parametersOf (s : Signature) : Value := tuple (s.parameters.map set)

/-- Whether a value is the tuple of some sets. -/
def isTupleOf (sets : List TypeSet) : Value → Bool
  | tuple vs => vs.mapM asSet? == some sets
  | _ => false

/-- Whether two lists of tags have the same tags. -/
def haveSameTags (ts us : List Tag) : Bool := ts.all us.contains && us.all ts.contains

mutual

/-- Whether two values are the same. Truth values count as the integers 0 and
1, alternations are the same if they have the same members, and a set of tags
is the same as a set of signatures if both are empty. Signatures have to agree in
their fingerprints besides. -/
def equals : Value → Value → Bool
  | none, none => true
  | bool a, bool b => a == b
  | bool a, int j => (if a then 1 else 0) == j
  | int i, bool b => i == (if b then 1 else 0)
  | int i, int j => i == j
  | str a, str b => a == b
  | list vs, list ws => equalsAll vs ws
  | tuple vs, tuple ws => equalsAll vs ws
  | tag t, tag u => t == u
  | union u, union v => haveSameTags u.members v.members
  | union u, alteredUnion m =>
    ((alteredUnion m).alternatives?.map (haveSameTags u.members)).getD false
  | alteredUnion m, union u =>
    ((alteredUnion m).alternatives?.map (haveSameTags u.members)).getD false
  | alteredUnion m, alteredUnion n =>
    equals m n ||
      match (alteredUnion m).alternatives?, (alteredUnion n).alternatives? with
      | some ts, some us => haveSameTags ts us
      | _, _ => false
  | set s, set t => s == t
  | signature s, signature t => s == t
  | signature s, alteredSignature p f => isTupleOf s.parameters p && isTupleOf s.parameters f
  | alteredSignature p f, signature s => isTupleOf s.parameters p && isTupleOf s.parameters f
  | alteredSignature p f, alteredSignature q g => equals p q && equals f g
  | signatures s, signatures t => s == t
  | set s, signatures t => s.isEmpty && t.isEmpty
  | signatures s, set t => s.isEmpty && t.isEmpty
  | _, _ => false

/-- Whether two lists of values are the same, place by place. -/
def equalsAll : List Value → List Value → Bool
  | [], [] => true
  | v :: vs, w :: ws => equals v w && equalsAll vs ws
  | _, _ => false

end

/-- The type that a value is, if it is a tag or an alternation of tags. -/
def asType? : Value → Option TypeExpr
  | tag t => some (.tag t)
  | union u => some (.union u)
  | alteredUnion members =>
    (alteredUnion members).alternatives?.map fun ts => .union (.ofTypes (ts.map .tag))
  | _ => Option.none

/-- The signature that a value is, if it has nothing but sets. -/
def asSignature? (v : Value) : Option Signature := v.sets?.map Signature.mk

/-- The integer that a value stands for: a truth value counts as 0 or 1. -/
def integer? : Value → Option Int
  | bool b => some (if b then 1 else 0)
  | int i => some i
  | _ => Option.none

/-- Whether an integer fits into a word of 64 bits. -/
def fitsWord (i : Int) : Bool := -9223372036854775808 ≤ i && i ≤ 9223372036854775807

mutual

/-- Whether a value can be a key: lists, sets of signatures, and what holds one
of them cannot. The fingerprint of an altered signature has to be its own or an
integer. -/
def isKey : Value → Bool
  | list _ => false
  | signatures _ => false
  | tuple vs => areKeys vs
  | alteredUnion members => holdsKeys members
  | alteredSignature _ fingerprint =>
    match fingerprint with
    | tuple _ => true
    | v => v.integer?.isSome
  | _ => true

/-- Whether all of some values can be keys. -/
def areKeys : List Value → Bool
  | [] => true
  | v :: vs => isKey v && areKeys vs

/-- Whether a value can be listed and holds nothing but keys. -/
def holdsKeys : Value → Bool
  | list vs => areKeys vs
  | tuple vs => areKeys vs
  | v => v.items?.isSome

end

/-- Whether a value can be looked up in a set: keys can, and so can sets of
signatures, which are compared as sets. -/
def canBeSought : Value → Bool
  | signatures _ => true
  | v => v.isKey

end Value

/-- Why a type, a set or a tag could not be built. -/
inductive TypeFault where
  /-- The name of a tag is not a text or is empty. -/
  | notAName (value : Value)
  /-- An argument of a tag is not a tag. -/
  | notATag (argument : Value) (name : Name)
  /-- A member is neither a tag nor an alternation. -/
  | notAType (value : Value)
  /-- A tag that has arguments was applied. -/
  | alreadyApplied (cause : Tag.AlreadyApplied)

/-- The text that reports why a type could not be built. -/
def TypeFault.message : TypeFault → String
  | notAName value => s!"A type tag needs a name, not {value.render}."
  | notATag argument name => s!"Argument {argument.render} of tag {name.text} is not a type tag."
  | notAType value => s!"{value.render} is not a type."
  | alreadyApplied cause => cause.message

/-- The tags among some values, if all of them are tags. -/
def Tag.argumentsOfValues (name : Name) : List Value → Except TypeFault (List Tag)
  | [] => .ok []
  | .tag t :: vs => (argumentsOfValues name vs).map (t :: ·)
  | v :: _ => .error (.notATag v name)

/-- The tag with a name and arguments. The name is checked before the
arguments. -/
def Tag.ofValues (name : Value) (arguments : List Value) : Except TypeFault Tag :=
  match name with
  | .str s =>
    match Name.ofString? s with
    | some n => (argumentsOfValues n arguments).map (Tag.mk n)
    | none => .error (.notAName name)
  | _ => .error (.notAName name)

/-- Apply a tag to arguments. That the tag is atomic is checked before the
arguments. -/
def Tag.applyValues (t : Tag) (arguments : List Value) : Except TypeFault Tag :=
  if t.isAtom then (argumentsOfValues t.name arguments).map (Tag.mk t.name)
  else .error (.alreadyApplied ⟨t⟩)

end DispatchCoverage

import DispatchCoverage.Graph.Namespaces
import DispatchCoverage.Value

/-!
# Reading values from a graph

Tags, type sets and signatures are read back from their nodes. A property that
is read for its one value must not have two. A list is read up to a node
without a first item, or with an empty, false or zero literal as its first
item; that node has to be the empty list. Lists and tags that contain
themselves are told apart by the number of triples, which bounds every other
chain of nodes.
-/

namespace DispatchCoverage

/-- Why a value could not be read from a graph. -/
inductive ReadError where
  /-- A property has two values where one is needed. -/
  | notUnique
  /-- A node has no name, so it is no tag. -/
  | notATag (node : Option Node)
  /-- A node has no parameters, so it is no signature. -/
  | notASignature (node : Option Node)
  /-- A list does not end in the empty list. -/
  | notAList
  /-- The name of a tag is empty. -/
  | type (cause : TypeFault)
  /-- A list or a tag contains itself. -/
  | circular

namespace Node

/-- How an error refers to a node: by address or text, while blank nodes are
all called the same. -/
def mention : Option Node → String
  | none => "None"
  | some (iri address) => address
  | some (blank _) => "BNODE"
  | some (literal value) => value.lexical

end Node

/-- The text that reports why a value could not be read. -/
def ReadError.message : ReadError → String
  | notUnique => "A property has more than one value."
  | notATag node => s!"Node {Node.mention node} is not a type tag"
  | notASignature node => s!"Node {Node.mention node} is not a signature"
  | notAList => "Node is not an RDF list"
  | type cause => cause.message
  | circular => "A node contains itself."

/-- The items of a list up to its end or to an error. -/
structure ListReading where
  /-- The items read. -/
  items : List Node
  /-- The error behind them, if there is one. -/
  error : Option ReadError

namespace Graph

/-- The one value of a property, if there is any. An absent node has no
properties. -/
def value? (g : Graph) (subject : Option Node) (predicate : Node) :
    Except ReadError (Option Node) :=
  match subject with
  | none => .ok none
  | some s =>
    match g.objects (some s) (some predicate) with
    | [] => .ok none
    | [o] => .ok (some o)
    | _ => .error .notUnique

/-- Read a list through at most a number of nodes. -/
def listWithin (g : Graph) : Nat → Option Node → ListReading
  | 0, _ => ⟨[], some .circular⟩
  | fuel + 1, node =>
    let finish : ListReading := ⟨[], if node = some .nil then none else some .notAList⟩
    match g.value? node .first with
    | .error e => ⟨[], some e⟩
    | .ok none => finish
    | .ok (some item) =>
      if item.isFalsy then finish
      else
        match g.value? node .rest with
        | .error e => ⟨[item], some e⟩
        | .ok rest =>
          let later := listWithin g fuel rest
          ⟨item :: later.items, later.error⟩

/-- Read a list. -/
def list (g : Graph) (node : Option Node) : ListReading := g.listWithin (g.size + 2) node

/-- Read the items of a list one by one; an error in an item wins over one in
the list behind it. -/
def eachItem {α : Type} (f : Node → Except ReadError α) (reading : ListReading) :
    Except ReadError (List α) := do
  let values ← reading.items.mapM f
  match reading.error with
  | some e => .error e
  | none => .ok values

/-- Read a tag through at most a number of levels. -/
def tagWithin (g : Graph) : Nat → Option Node → Except ReadError Tag
  | 0, _ => .error .circular
  | fuel + 1, node => do
    match ← g.value? node .name with
    | none => .error (.notATag node)
    | some name =>
      let arguments ← match ← g.value? node .arguments with
        | none => .ok []
        | some list =>
          if list.isFalsy then .ok []
          else eachItem (fun item => tagWithin g fuel (some item)) (g.list (some list))
      match Name.ofString? name.nameText with
      | some n => .ok (Tag.mk n arguments)
      | none => .error (.type (.notAName (.str name.nameText)))

/-- Read a tag. -/
def tag (g : Graph) (node : Option Node) : Except ReadError Tag :=
  g.tagWithin (g.size + 2) node

/-- Read a type set. -/
def typeSet (g : Graph) (node : Option Node) : Except ReadError TypeSet := do
  let tags ← (g.objects node (some .member)).mapM fun member => g.tag (some member)
  return Ascending.ofList tags

/-- Read a signature. -/
def signature (g : Graph) (node : Option Node) : Except ReadError Signature := do
  match ← g.value? node .parameters with
  | none => .error (.notASignature node)
  | some list =>
    let parameters ← eachItem (fun item => g.typeSet (some item)) (g.list (some list))
    return ⟨parameters⟩

/-- The nodes of all checks. -/
def checks (g : Graph) : List Node := g.subjects (some .type) (some .checkClass)

/-- Read the leaves of a check. -/
def leaves (g : Graph) (check : Option Node) : Except ReadError (List Signature) :=
  (g.objects check (some .leaf)).mapM fun leaf => g.signature (some leaf)

end Graph

end DispatchCoverage

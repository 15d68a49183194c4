import DispatchCoverage.Graph.Namespaces
import DispatchCoverage.Signature

/-!
# Coverage graphs

A coverage graph describes checks: the interface of each check, the
implementations considered and the leaves found. Signatures are written as
lists of type sets, and tags with their arguments as lists. Equal tags share
one node, and so do equal signatures; every type set gets a node of its own.
-/

namespace DispatchCoverage

/-- A graph of checks that is being written. -/
structure CoverageGraph where
  /-- The triples written so far. -/
  graph : Graph := .empty
  /-- The number of the next blank node. -/
  next : Nat := 0
  /-- The nodes of the tags written so far. -/
  tagNodes : List (Tag × Node) := []
  /-- The nodes of the signatures written so far. -/
  signatureNodes : List (Signature × Node) := []
  /-- Whether tags, signatures and named checks get a label. -/
  withLabels : Bool := true

namespace CoverageGraph

/-- A blank node that occurs nowhere in the graph yet. -/
def fresh (g : CoverageGraph) : Node × CoverageGraph :=
  (.blank (.fresh g.next), { g with next := g.next + 1 })

/-- State a property of a node. -/
def state (g : CoverageGraph) (subject predicate object : Node) : CoverageGraph :=
  { g with graph := g.graph.insert ⟨subject, predicate, object⟩ }

/-- State a label, if labels are wanted. -/
def stateLabel (g : CoverageGraph) (subject : Node) (text : String) : CoverageGraph :=
  if g.withLabels then g.state subject .label (.literal (.text text)) else g

/-- Write a list of nodes. -/
def addList (g : CoverageGraph) : List Node → Node × CoverageGraph
  | [] => (.nil, g)
  | item :: items =>
    let (node, g) := g.fresh
    let g := g.state node .first item
    let (rest, g) := addList g items
    (node, g.state node .rest rest)

/-- The node of a tag that was written before. -/
def tagNode? (g : CoverageGraph) (t : Tag) : Option Node :=
  (g.tagNodes.find? (fun entry => entry.1 == t)).map Prod.snd

/-- The node of a signature that was written before. -/
def signatureNode? (g : CoverageGraph) (s : Signature) : Option Node :=
  (g.signatureNodes.find? (fun entry => entry.1 == s)).map Prod.snd

mutual

/-- Write a tag, unless it was written before. -/
def addTag (g : CoverageGraph) : Tag → Node × CoverageGraph
  | .mk n ts =>
    match g.tagNode? (.mk n ts) with
    | some node => (node, g)
    | none =>
      let (node, g) := g.fresh
      let g := { g with tagNodes := (.mk n ts, node) :: g.tagNodes }
      let g := g.state node .type .tagClass
      let g := g.state node .name (.literal (.text n.text))
      let g :=
        if ts.isEmpty then g
        else
          let (items, g) := addTags g ts
          let (list, g) := g.addList items
          g.state node .arguments list
      (node, g.stateLabel node (Tag.text {} (.mk n ts)))

/-- Write several tags, in order. -/
def addTags (g : CoverageGraph) : List Tag → List Node × CoverageGraph
  | [] => ([], g)
  | t :: ts =>
    let (node, g) := addTag g t
    let (nodes, g) := addTags g ts
    (node :: nodes, g)

end

/-- State the members of a type set. -/
def addMembers (g : CoverageGraph) (node : Node) : List Tag → CoverageGraph
  | [] => g
  | t :: ts =>
    let (member, g) := g.addTag t
    addMembers (g.state node .member member) node ts

/-- Write a type set. -/
def addTypeSet (g : CoverageGraph) (s : TypeSet) : Node × CoverageGraph :=
  let (node, g) := g.fresh
  let g := g.state node .type .typeSetClass
  (node, g.addMembers node s.toList)

/-- Write several type sets, in order. -/
def addTypeSets (g : CoverageGraph) : List TypeSet → List Node × CoverageGraph
  | [] => ([], g)
  | s :: ss =>
    let (node, g) := g.addTypeSet s
    let (nodes, g) := addTypeSets g ss
    (node :: nodes, g)

/-- Write a signature, unless it was written before. -/
def addSignature (g : CoverageGraph) (s : Signature) : Node × CoverageGraph :=
  match g.signatureNode? s with
  | some node => (node, g)
  | none =>
    let (node, g) := g.fresh
    let g := { g with signatureNodes := (s, node) :: g.signatureNodes }
    let g := g.state node .type .signatureClass
    let (items, g) := g.addTypeSets s.parameters
    let (list, g) := g.addList items
    let g := g.state node .parameters list
    (node, g.stateLabel node (s.text {}))

/-- Write several signatures as values of a property, in order. -/
def addSignatures (g : CoverageGraph) (subject predicate : Node) : List Signature → CoverageGraph
  | [] => g
  | s :: ss =>
    let (node, g) := g.addSignature s
    addSignatures (g.state subject predicate node) subject predicate ss

/-- Write the outcome of a check. A named check is a resource with an address
made from its name, another check a blank node. -/
def addCheck (g : CoverageGraph) (interface : Signature) (implementations leaves : List Signature)
    (name : Option Name := none) : Node × CoverageGraph :=
  let (root, g) := match name with
    | some n => (Node.check n, g)
    | none => g.fresh
  let g := g.state root .type .checkClass
  let (node, g) := g.addSignature interface
  let g := g.state root .interface node
  let g := g.addSignatures root .implementation implementations
  let g := g.addSignatures root .leaf leaves
  let g := g.state root .complete (.literal (.truth leaves.isEmpty))
  let g := match name with
    | some n => g.stateLabel root n.text
    | none => g
  (root, g)

end CoverageGraph

end DispatchCoverage

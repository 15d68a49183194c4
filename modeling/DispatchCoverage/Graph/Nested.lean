import DispatchCoverage.Graph.Canonical
import DispatchCoverage.Graph.Coverage

/-!
# Blank nodes written where they are referred to

Turtle writes a blank node at the one place that refers to it, as a list of
items in brackets if it begins one, and otherwise as a list of its properties.
Every other blank node is written by its label. The cells of a list are known by
the number of their properties: what a cell says besides its item and what
follows is lost, and so is what follows if it is no cell. A node that was written
as a cell is not written once more, so that a label of it is all that other
references keep.
-/

namespace DispatchCoverage

namespace Node

/-- The order of kinds of nodes: blank nodes, addresses, literals. -/
def rank : Node → Nat
  | blank _ => 0
  | iri _ => 1
  | literal _ => 2

/-- Whether a node does not come behind another, by kind and then by text. -/
def isSortedBefore (a b : Node) : Bool :=
  ((compare a.rank b.rank).then (compare a.nameText b.nameText)).isLE

end Node

namespace Graph

/-- The number of triples that refer to a node. Only a blank node is referred to
as a property. -/
def references (g : Graph) (node : Node) : Nat :=
  (g.subjects none (some node)).length +
    if node.isBlank then (g.triples.filter (fun t => t.predicate == node)).length else 0

/-- The chain of at most a number of cells that begins at a node and ends in
front of an empty node or with a node that nothing follows. A cell has two
properties, the empty list any number. -/
def cellsWithin? (g : Graph) : Nat → Node → Option (List Node)
  | 0, _ => none
  | fuel + 1, node =>
    if node.isFalsy then some []
    else if node ≠ .nil && (g.triples.filter (Triple.fits (some node) none none)).length ≠ 2 then
      none
    else
      match g.earliest? node .rest with
      | none => some [node]
      | some rest => (cellsWithin? g fuel rest).map (node :: ·)

/-- The cells of the list that begins at a node. The first of them has an
item. -/
def nestedCells? (g : Graph) (node : Node) : Option (List Node) :=
  if (g.earliest? node .first).isSome then g.cellsWithin? (g.size + 2) node else none

/-- A document that is being written. -/
structure Layout where
  /-- The triples that it states, as they are read back. -/
  stated : CoverageGraph
  /-- The nodes that need not be written any more. -/
  written : List Node

/-- Writing a document, which fails where there is no end. -/
abbrev Laying := StateT Layout Option

namespace Laying

/-- Write to the triples. -/
def state {α : Type} (f : CoverageGraph → α × CoverageGraph) : Laying α :=
  modifyGet fun layout =>
    let (result, stated) := f layout.stated
    (result, { layout with stated })

/-- Take a node for written. -/
def finish (node : Node) : Laying Unit :=
  modify fun layout => { layout with written := node :: layout.written }

end Laying

/-- Nodes in order, each once. -/
def sortNodes (nodes : List Node) : List Node := nodes.eraseDups.mergeSort Node.isSortedBefore

/-- The properties of a node in the order in which they are written: its class
and its label come first. -/
def orderedProperties (g : Graph) (node : Node) : List Node :=
  let stated := g.triples.filter (Triple.fits (some node) none none)
  let found := sortNodes (stated.map Triple.predicate)
  let leading := [Node.type, Node.label]
  leading.filter found.contains ++ found.filter (fun property => !leading.contains property)

/-- State the properties of a node about a subject, where properties and values
are written in a given way. -/
def layProperties (g : Graph) (place : Node → Laying Node) (subject node : Node) : Laying Unit := do
  for property in g.orderedProperties node do
    let placed ← place property
    for value in sortNodes (g.objects (some node) (some property)) do
      let value ← place value
      Laying.state fun stated => ((), stated.state subject placed value)

/-- Write a value or a property through at most a number of levels, where the
references to each node are counted in a given way. -/
def layWithin (g : Graph) (count : Node → Nat) : Nat → Node → Laying Node
  | 0, _ => failure
  | fuel + 1, node => do
    if !node.isBlank || (← get).written.contains node || 1 < count node then return node
    match g.nestedCells? node with
    | some cells =>
      let items ← cells.mapM fun cell => do
        match g.earliest? cell .first with
        | none => return none
        | some item =>
          let item ← layWithin g count fuel item
          Laying.finish cell
          return some item
      Laying.state fun stated => stated.addList (items.filterMap id)
    | none =>
      Laying.finish node
      let subject ← Laying.state CoverageGraph.fresh
      g.layProperties (layWithin g count fuel) subject node
      return subject

/-- Write what a graph states about a node, unless it was written before. A blank
node that nothing refers to needs no label. -/
def laySubject (g : Graph) (count : Node → Nat) (node : Node) : Laying Unit := do
  if (← get).written.contains node then return
  Laying.finish node
  let subject ←
    if node.isBlank && count node = 0 then Laying.state CoverageGraph.fresh else pure node
  g.layProperties (g.layWithin count (4 * g.size + 4)) subject node

/-- The subjects of a graph in the order in which they are written: classes,
then blank nodes behind all others, and those with few references first. -/
def orderedSubjects (g : Graph) (count : Node → Nat) : List Node :=
  let subjects := sortNodes (g.triples.map Triple.subject)
  let isClass (node : Node) : Bool := g.triples.contains ⟨node, .type, .classClass⟩
  let rank (node : Node) : Nat × Nat := (if node.isBlank then 1 else 0, count node)
  let isBefore (a b : Node) : Bool :=
    ((compare (rank a).1 (rank b).1).then (compare (rank a).2 (rank b).2)).isLE
  subjects.filter isClass ++ (subjects.filter (fun node => !isClass node)).mergeSort isBefore

/-- A graph with blank nodes written where they are referred to. -/
def nested? (g : Graph) (count : Node → Nat) : Option Graph :=
  let layout := ((g.orderedSubjects count).forM (g.laySubject count)).run
    { stated := { graph := .empty, next := g.unusedNumber }, written := [] }
  layout.map fun (_, layout) => layout.stated.graph

end Graph

end DispatchCoverage

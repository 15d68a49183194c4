import DispatchCoverage.Graph.Canonical
import DispatchCoverage.Graph.Coverage

/-!
# Lists written in place

JSON-LD writes the items of a list at the place where the list is a value, and
not the list itself. A list that is a value in two places is thereby written
twice, and both copies are read back as lists of their own. Only the resources
that have an address, those that are no values, and those reached from them are
written at all. A blank node with an empty label is read back as an address.
-/

namespace DispatchCoverage.Graph

/-- The properties of a resource with their values. -/
def properties (g : Graph) (node : Node) : List (Node × Node) :=
  (g.triples.filter (Triple.fits (some node) none none)).map fun t => (t.predicate, t.object)

/-- The one that counts of several values, given in the order in which they were
stated: the last one, where all others have to be empty, false or zero. -/
def counting? (values : List Node) : Option (Option Node) :=
  if values.dropLast.all Node.isFalsy then some values.getLast? else none

/-- The item of a cell of a list, if it has one, and what follows the cell. A
cell has nothing but an item and what follows, and may be stated to be a
list. -/
def cell? (g : Graph) (node : Node) : Option (Option Node × Node) :=
  match node with
  | .iri _ => none
  | _ =>
    let isPart (entry : Node × Node) : Bool :=
      entry.1 == .first || entry.1 == .rest || entry == (.type, .listClass)
    let values (property : Node) : List Node := (g.objects (some node) (some property)).reverse
    if node.isFalsy || !(g.properties node).all isPart then none
    else
      match counting? (values .first), counting? (values .rest) with
      | some item, some (some rest) => some (item, rest)
      | _, _ => none

/-- The items in a chain of at most a number of cells that ends in the empty
list. -/
def chainWithin? (g : Graph) : Nat → Node → Option (List Node)
  | 0, _ => none
  | fuel + 1, node =>
    if node = .nil then some []
    else
      match g.cell? node with
      | some (item, rest) => (chainWithin? g fuel rest).map (item.toList ++ ·)
      | none => none

/-- The items of a node that is written in place: those of a list whose first
item is neither empty nor false nor zero. -/
def inPlace? (g : Graph) (node : Node) : Option (List Node) :=
  if node = .nil || (g.earliest? node .first).any (fun item => !item.isFalsy) then
    g.chainWithin? (g.size + 1) node
  else none

/-- The empty list has no items. -/
theorem inPlace?_nil (g : Graph) : g.inPlace? .nil = some [] := by simp [inPlace?, chainWithin?]

/-- How a label of a blank node begins in JSON-LD. -/
def labelMark : List Char := ['_', ':']

/-- A node as it is read back. A blank node is told from an address by the mark
in front of its label, which must not be empty. -/
def identified (node : Node) : Node :=
  match node with
  | .blank (.labelled "") => .iri (String.ofList labelMark)
  | .iri address =>
    if labelMark.isPrefixOf address.toList && 2 < address.length then
      .blank (.labelled (String.ofList (address.toList.drop 2)))
    else node
  | _ => node

/-- The property that the text of a node is read back as: an address with a
colon, and no label of a blank node. -/
def asProperty? (node : Node) : Option Node :=
  let property := Node.iri node.nameText
  if node.nameText.toList.contains ':' && !(identified property).isBlank then some property
  else none

/-- Writing to another graph, which fails at a list that contains itself. -/
abbrev Copying := StateT CoverageGraph Option

/-- Write a value in place through at most a number of levels: a list as a copy
of its own, and any other node as it is. The nodes that are no lists are given
back besides the value. -/
def placeWithin (g : Graph) : Nat → Node → Copying (Node × List Node)
  | 0, _ => failure
  | fuel + 1, node =>
    match g.inPlace? node with
    | none => return (identified node, [node])
    | some items => do
      let placed ← items.mapM (placeWithin g fuel)
      let list ← modifyGet fun out => out.addList (placed.map Prod.fst)
      return (list, placed.flatMap Prod.snd)

/-- Write a resource with its values in place. The nodes that it refers to are
given back. -/
def copyResource (g : Graph) (node : Node) : Copying (List Node) := do
  let found ← (g.properties node).mapM fun (property, value) => do
    let (value, met) ← g.placeWithin (g.size + 2) value
    if let some property := asProperty? property then
      modify fun out => out.state (identified node) property value
    return met
  return found.flatten

/-- Write resources and the blank nodes that they refer to, round by round, where
some nodes have been written already or are about to be. -/
def copyWithin (g : Graph) : Nat → List Node → List Node → Copying Unit
  | 0, _, _ => return
  | fuel + 1, seen, frontier => do
    let found ← frontier.mapM g.copyResource
    let new := (found.flatten.filter fun n => n.isBlank && !seen.contains n).eraseDups
    if new.isEmpty then return
    else copyWithin g fuel (seen ++ new) new

/-- The resources that are written without being reached from another one:
those with an address, and the blank nodes that are no values of any node other
than an empty, false or zero one. -/
def roots (g : Graph) : List Node :=
  (g.triples.map Triple.subject).eraseDups.filter fun node =>
    match node with
    | .iri _ => true
    | .blank _ => (g.subjects none (some node)).all Node.isFalsy
    | .literal _ => false

/-- A graph with its lists written in place. Every round but the last one writes
a value of some triple that was not written before. -/
def listsInPlace? (g : Graph) : Option Graph :=
  let writing := g.copyWithin (g.size + 1) g.roots g.roots
  (writing.run { graph := .empty, next := g.unusedNumber }).map fun (_, out) => out.graph

end DispatchCoverage.Graph

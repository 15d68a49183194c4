import DispatchCoverage.Graph.Namespaces
import DispatchCoverage.Text.JsonString
import DispatchCoverage.TypeSet

/-!
# Canonical form of a graph

Blank nodes have no names of their own, so a blank node is described by its
properties. The canonical form numbers the blank nodes in the order of their
descriptions and lists the triples as sorted lines. Two graphs that differ in
the identity of their blank nodes only have the same canonical form.
-/

namespace DispatchCoverage

/-- The short form of a literal: its text, and its data type unless it is
plain. -/
def Literal.short (value : Literal) : String :=
  let quoted := Text.jsonString value.lexical
  match value with
  | text _ => quoted
  | truth _ => quoted ++ "^^" ++ Namespaces.abbreviate (Namespaces.xsd ++ "boolean")
  | integer _ => quoted ++ "^^" ++ Namespaces.abbreviate (Namespaces.xsd ++ "integer")

namespace Graph

/-- The description of a node through at most a number of levels: its short
form, or for a blank node its properties in brackets. -/
def describeWithin (g : Graph) : Nat → Node → String
  | _, .iri address => Namespaces.abbreviate address
  | _, .literal value => value.short
  | 0, .blank _ => "[]"
  | fuel + 1, .blank id =>
    let properties := (g.triples.filter (Triple.fits (some (.blank id)) none none)).map
      fun t => describeWithin g fuel t.predicate ++ " " ++ describeWithin g fuel t.object
    "[" ++ "; ".intercalate (TypeSet.sortTexts properties) ++ "]"

/-- The description of a node. -/
def describe (g : Graph) (node : Node) : String := g.describeWithin (g.size + 1) node

/-- The blank nodes of a graph. -/
def blankNodes (g : Graph) : List BlankNode :=
  (g.triples.flatMap fun t => [t.subject, t.predicate, t.object]).foldl
    (fun seen node =>
      match node with
      | .blank id => if seen.contains id then seen else id :: seen
      | _ => seen) []

/-- A number above those of all blank nodes. -/
def unusedNumber (g : Graph) : Nat :=
  g.blankNodes.foldl (fun least id =>
    match id with
    | .fresh number => max least (number + 1)
    | .labelled _ => least) 0

/-- The blank nodes of a graph with their descriptions. -/
def descriptions (g : Graph) : List (BlankNode × String) :=
  g.blankNodes.map fun id => (id, g.describe (.blank id))

/-- The lines of a graph, where blank nodes are numbered by the order of their
descriptions. -/
def canonicalLines (g : Graph) : List String :=
  let described := g.descriptions
  let ranks := (Ascending.ofList (described.map Prod.snd)).toList
  let name : Node → String
    | .iri address => Namespaces.abbreviate address
    | .literal value => value.short
    | .blank id =>
      let description := ((described.find? (fun entry => entry.1 == id)).map Prod.snd).getD ""
      "_:b" ++ toString (ranks.idxOf description)
  TypeSet.sortTexts (g.triples.map fun t =>
    name t.subject ++ " " ++ name t.predicate ++ " " ++ name t.object)

end Graph

end DispatchCoverage

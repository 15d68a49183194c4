import DispatchCoverage.Graph.InPlace
import DispatchCoverage.Graph.Line
import DispatchCoverage.Graph.Markup
import DispatchCoverage.Graph.Nested

/-!
# Exchanging a graph in a serial form

A graph that is written in a serial form and read back is the same graph, up to
the identity of its blank nodes, with some exceptions. Turtle and JSON-LD write
lists where they are values, RDF/XML and JSON-LD leave out what they cannot say,
and a document may be written that cannot be read, because a name, a label or a
character is not allowed where it stands.
-/

namespace DispatchCoverage

namespace Graph

/-- The characters that end a label in brackets. -/
def labelEnds : List Char :=
  ['\t', '\r', '\n', ' ', '!', '"', '#', '$', '&', '\'', '(', ')', '*', ',', '+', '/', ';', '<',
    '=', '>', '?', '@', '[', '\\', ']', '^', Char.ofNat 0x60, Char.ofNat 0x7b, '|', Char.ofNat 0x7d,
    '~', ':']

/-- Whether two hexadecimal digits stand behind every percent sign. -/
def hasFullEscapes : List Char → Bool
  | [] => true
  | c :: cs =>
    (c ≠ '%' || (cs.take 2).length = 2 && (cs.take 2).all (fun d => (Markup.hexDigit? d).isSome)) &&
      hasFullEscapes cs

/-- Whether a node is anything but a blank node whose label cannot be read in
Turtle. -/
def hasReadableLabel : Node → Bool
  | .blank (.labelled label) =>
    !label.toList.any labelEnds.contains && !label.endsWith "." && hasFullEscapes label.toList
  | _ => true

/-- A graph read back from Turtle or a form like it, where the references to each
node are counted in a given way. -/
def throughNested (g : Graph) (count : Node → Nat) : Except ExchangeError Graph :=
  match g.nested? count with
  | none => .error .endless
  | some copy =>
    if !copy.expressible .turtle then .error .unbracketable
    else if copy.triples.all fun t =>
        hasReadableLabel t.subject && hasReadableLabel t.predicate && hasReadableLabel t.object then
      .ok copy
    else .error .unreadable

/-- The references to a node, where each resource that a graph is about counts
as one more. -/
def referencesAndSubjects (g : Graph) (node : Node) : Nat :=
  g.references node + if (g.triples.map Triple.subject).contains node then 1 else 0

/-- A graph written in a serial form and read back. In TriG a resource is itself
a reference, so that nothing but a blank node without properties is written where
it is referred to. -/
def exchanged (g : Graph) (format : Format) : Except ExchangeError Graph :=
  match format with
  | .turtle => g.throughNested g.references
  | .trig => g.throughNested g.referencesAndSubjects
  | .xml => g.throughMarkup
  | .nTriples =>
    if !g.expressible .nTriples then .error .unbracketable
    else if g.triples.all Triple.isLine then .ok g
    else .error .misplaced
  | .jsonLd =>
    match g.listsInPlace? with
    | some copy => .ok copy
    | none => .error .endless

/-- A graph that goes through N-Triples is not changed. -/
theorem eq_of_exchanged_nTriples {g copy : Graph} (h : g.exchanged .nTriples = .ok copy) :
    copy = g := by
  dsimp only [exchanged] at h
  split at h
  · cases h
  · split at h
    · exact (Except.ok.inj h).symm
    · cases h

end Graph

end DispatchCoverage

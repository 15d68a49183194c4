import DispatchCoverage.Graph.Address
import DispatchCoverage.Text.Blank

/-!
# Triples in a line

N-Triples writes each triple in a line of its own. A line can be read if it is
about a resource, its property has an address, and its addresses and labels have
a form that the reader of lines knows.
-/

namespace DispatchCoverage

namespace Line

/-- The characters that a label may begin or end with. -/
def isLabelChar (c : Char) : Bool := c.isAlphanum || c = '_' || c = ':'

/-- Whether a text is a label. -/
def isLabel (text : String) : Bool :=
  match text.toList with
  | [] => false
  | c :: cs =>
    isLabelChar c && cs.all (fun c => isLabelChar c || c = '-' || c = '.') &&
      (cs.getLast?.all fun c => isLabelChar c || c = '-')

/-- Whether a text is an address: a scheme that is not empty and has no line
break, a colon, and a rest without blanks. -/
def isAddress (text : String) : Bool :=
  let scheme := text.toList.takeWhile (· ≠ ':')
  let rest := text.toList.dropWhile (· ≠ ':')
  !scheme.isEmpty && !rest.isEmpty && !rest.any Text.isBlank &&
    !scheme.any (fun c => c = '\n' || c = '\r')

end Line

/-- Whether a node can be read in a line. -/
def Node.isLineNode : Node → Bool
  | iri address => Line.isAddress address
  | blank (.labelled label) => Line.isLabel label
  | blank (.fresh _) => true
  | literal _ => true

/-- Whether a triple can be read in a line: it is about a resource, and its
property has an address. -/
def Triple.isLine (t : Triple) : Bool :=
  t.subject.isLineNode && t.predicate.isLineNode && t.object.isLineNode &&
    !t.subject.isLiteral && !t.predicate.isLiteral && !t.predicate.isBlank

/-- What a line is about and its property cannot be literals. -/
theorem Triple.not_isLiteral_of_isLine {t : Triple} (h : t.isLine = true) :
    t.subject.isLiteral = false ∧ t.predicate.isLiteral = false := by
  simp only [isLine, Bool.and_eq_true, Bool.not_eq_true'] at h
  exact ⟨h.1.1.2, h.1.2⟩

end DispatchCoverage

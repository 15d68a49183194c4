import DispatchCoverage.Graph.Reading

/-!
# Errors of exchanging a graph

A graph may have no document in a serial form, or a document that cannot be
read. Only the reasons that concern the properties of the graph are reported in
words.
-/

namespace DispatchCoverage

/-- Why a graph cannot be exchanged in a serial form. -/
inductive ExchangeError where
  /-- An address cannot be put into angle brackets. -/
  | unbracketable
  /-- A property has a character that no address may have. -/
  | improper (property : Node)
  /-- A property cannot be split into a namespace and a name. -/
  | unsplittable (property : Node)
  /-- A property does not end in a name that RDF/XML allows. -/
  | nameless (property : Node)
  /-- A list contains itself. -/
  | endless
  /-- The document is no XML. -/
  | malformed
  /-- The document has a node that is not allowed where it stands. -/
  | misplaced
  /-- The document has a label that cannot be read. -/
  | unreadable

/-- The text that reports why a graph cannot be written, if there is one. -/
def ExchangeError.message? : ExchangeError → Option String
  | improper property =>
    let text := Node.mention (some property)
    some s!"\"{text}\" does not look like a valid URI, cannot serialize this. Did you want to urlencode it?"
  | unsplittable property => some s!"Can't split '{Node.mention (some property)}'"
  | nameless property =>
    some ("This graph cannot be serialized to a strict format because there is no valid way to "
      ++ "shorten " ++ Node.mention (some property))
  | _ => none

end DispatchCoverage

import DispatchCoverage.Graph.Address
import DispatchCoverage.Text.JsonString

/-!
# Serial forms of a graph

A graph can be written as N-Triples, which Turtle and TriG documents may
consist of, as RDF/XML, or as JSON-LD.
-/

namespace DispatchCoverage

namespace Serial

/-- The label of a blank node. Labels of callers cannot clash with numbers. -/
def blankLabel : BlankNode → String
  | .fresh number => "b" ++ toString number
  | .labelled label => "l" ++ label

/-- The address of the data type of a literal, unless it is plain. -/
def dataType? : Literal → Option String
  | .text _ => none
  | .truth _ => some (Namespaces.xsd ++ "boolean")
  | .integer _ => some (Namespaces.xsd ++ "integer")

/-- A node in an N-Triples line. -/
def term : Node → String
  | .iri address => "<" ++ address ++ ">"
  | .blank id => "_:" ++ blankLabel id
  | .literal value =>
    Text.jsonString value.lexical ++
      match dataType? value with
      | some address => "^^<" ++ address ++ ">"
      | none => ""

/-- A graph as N-Triples. -/
def nTriples (g : Graph) : String :=
  String.join (g.triples.map fun t =>
    term t.subject ++ " " ++ term t.predicate ++ " " ++ term t.object ++ " .\n")

/-- A character between tags or quotes of XML. -/
def xmlChar (c : Char) : List Char :=
  if c = '<' then "&lt;".toList
  else if c = '>' then "&gt;".toList
  else if c = '&' then "&amp;".toList
  else if c = '"' then "&quot;".toList
  else if c = '\n' || c = '\r' || c = '\t' then ("&#" ++ toString c.toNat ++ ";").toList
  else [c]

/-- A text between tags or quotes of XML. -/
def xmlText (text : String) : String := String.ofList (text.toList.flatMap xmlChar)

/-- A triple as a description in RDF/XML. -/
def xmlTriple (t : Triple) : String :=
  let subject := match t.subject with
    | .blank id => "rdf:nodeID=\"" ++ blankLabel id ++ "\""
    | .iri address => "rdf:about=\"" ++ xmlText address ++ "\""
    | .literal value => "rdf:about=\"" ++ xmlText value.lexical ++ "\""
  let (space, name) := match t.predicate with
    | .iri address =>
      (Address.split? Address.startsStrictName address).getD (address, "")
    | _ => ("", "")
  let opening := "<p:" ++ name ++ " xmlns:p=\"" ++ xmlText space ++ "\""
  let property := match t.object with
    | .iri address => opening ++ " rdf:resource=\"" ++ xmlText address ++ "\"/>"
    | .blank id => opening ++ " rdf:nodeID=\"" ++ blankLabel id ++ "\"/>"
    | .literal value =>
      let kind := match dataType? value with
        | some address => " rdf:datatype=\"" ++ address ++ "\""
        | none => ""
      opening ++ kind ++ ">" ++ xmlText value.lexical ++ "</p:" ++ name ++ ">"
  "  <rdf:Description " ++ subject ++ ">" ++ property ++ "</rdf:Description>\n"

/-- A graph as RDF/XML. -/
def xml (g : Graph) : String :=
  "<?xml version=\"1.0\" encoding=\"utf-8\"?>\n<rdf:RDF xmlns:rdf=\"" ++ Namespaces.rdf ++ "\">\n"
    ++ String.join (g.triples.map xmlTriple) ++ "</rdf:RDF>\n"

/-- A JSON object with the given members. -/
def jsonObject (members : List (String × String)) : String :=
  "\x7b" ++ ", ".intercalate (members.map fun (key, value) => Text.jsonString key ++ ": " ++ value)
    ++ "\x7d"

/-- The identity of a resource in JSON-LD. -/
def jsonIdentity : Node → String
  | .iri address => Text.jsonString address
  | .blank id => Text.jsonString ("_:" ++ blankLabel id)
  | .literal value => Text.jsonString value.lexical

/-- A triple as a node object in JSON-LD. -/
def jsonTriple (t : Triple) : String :=
  let object := match t.object with
    | .literal value =>
      let kind := (dataType? value).map fun address => ("@type", Text.jsonString address)
      jsonObject (("@value", Text.jsonString value.lexical) :: kind.toList)
    | resource => jsonObject [("@id", jsonIdentity resource)]
  let predicate := match t.predicate with
    | .iri address => address
    | _ => ""
  jsonObject [("@id", jsonIdentity t.subject), (predicate, "[" ++ object ++ "]")]

/-- A graph as JSON-LD. -/
def jsonLd (g : Graph) : String :=
  "[" ++ ",\n".intercalate (g.triples.map jsonTriple) ++ "]\n"

end Serial

/-- A graph in a serial form. -/
def Graph.serialize (g : Graph) : Format → String
  | .turtle => Serial.nTriples g
  | .nTriples => Serial.nTriples g
  | .trig => Serial.nTriples g
  | .xml => Serial.xml g
  | .jsonLd => Serial.jsonLd g

end DispatchCoverage

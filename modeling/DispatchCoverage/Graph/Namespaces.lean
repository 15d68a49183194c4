import DispatchCoverage.Graph.Triple
import DispatchCoverage.Tag

/-!
# Namespaces and properties

The addresses of the resources that coverage graphs are written with, and the
short forms of the namespaces they belong to.
-/

namespace DispatchCoverage.Namespaces

/-- The namespace of coverage terms. -/
def pck : String := "https://example.com/patchk#"

/-- The namespace of named checks. -/
def ex : String := "https://example.com/#"

/-- The namespace of lists and types. -/
def rdf : String := "http://www.w3.org/1999/02/22-rdf-syntax-ns#"

/-- The namespace of labels. -/
def rdfs : String := "http://www.w3.org/2000/01/rdf-schema#"

/-- The namespace of data types. -/
def xsd : String := "http://www.w3.org/2001/XMLSchema#"

/-- The namespaces with their short forms. -/
def table : List (String × String) :=
  [("pck", pck), ("ex", ex), ("rdf", rdf), ("rdfs", rdfs), ("xsd", xsd)]

/-- Whether a text is one of the namespaces with a short form. -/
def isNamespace (text : String) : Bool :=
  table.any (fun entry => entry.2 == text)

/-- The address that a short form stands for. An address whose namespace is
not in the table stands for itself. -/
def expand (short : String) : String :=
  let cs := short.toList
  let head := String.ofList (cs.takeWhile (· ≠ ':'))
  match table.find? (fun entry => entry.1 == head) with
  | some (_, address) => address ++ String.ofList ((cs.dropWhile (· ≠ ':')).drop 1)
  | none => short

/-- The short form of an address: its namespace shortened, or the address in
angle brackets. -/
def abbreviate (address : String) : String :=
  let cs := address.toList
  match table.find? (fun entry => entry.2.toList.isPrefixOf cs) with
  | some (head, whole) => head ++ ":" ++ String.ofList (cs.drop whole.length)
  | none => "<" ++ address ++ ">"

end DispatchCoverage.Namespaces

namespace DispatchCoverage.Node

/-- The class that a resource belongs to. -/
def type : Node := iri (Namespaces.rdf ++ "type")

/-- The first item of a list. -/
def first : Node := iri (Namespaces.rdf ++ "first")

/-- The list behind the first item. -/
def rest : Node := iri (Namespaces.rdf ++ "rest")

/-- The empty list. -/
def nil : Node := iri (Namespaces.rdf ++ "nil")

/-- The class of lists. -/
def listClass : Node := iri (Namespaces.rdf ++ "List")

/-- The class of classes. -/
def classClass : Node := iri (Namespaces.rdfs ++ "Class")

/-- The next member of a container. -/
def li : Node := iri (Namespaces.rdf ++ "li")

/-- The member of a container with a number. -/
def containerMember (number : Nat) : Node := iri (Namespaces.rdf ++ "_" ++ toString number)

/-- The label of a resource. -/
def label : Node := iri (Namespaces.rdfs ++ "label")

/-- The class of tags. -/
def tagClass : Node := iri (Namespaces.pck ++ "Tag")

/-- The class of type sets. -/
def typeSetClass : Node := iri (Namespaces.pck ++ "TypeSet")

/-- The class of signatures. -/
def signatureClass : Node := iri (Namespaces.pck ++ "Signature")

/-- The class of checks. -/
def checkClass : Node := iri (Namespaces.pck ++ "Check")

/-- The name of a tag. -/
def name : Node := iri (Namespaces.pck ++ "name")

/-- The list of the arguments of a tag. -/
def arguments : Node := iri (Namespaces.pck ++ "arguments")

/-- A member of a type set. -/
def member : Node := iri (Namespaces.pck ++ "member")

/-- The list of the parameters of a signature. -/
def parameters : Node := iri (Namespaces.pck ++ "parameters")

/-- The interface of a check. -/
def interface : Node := iri (Namespaces.pck ++ "interface")

/-- An implementation considered by a check. -/
def implementation : Node := iri (Namespaces.pck ++ "implementation")

/-- A leaf found by a check. -/
def leaf : Node := iri (Namespaces.pck ++ "leaf")

/-- Whether a check found no leaf. -/
def complete : Node := iri (Namespaces.pck ++ "complete")

/-- The resource of a named check. -/
def check (name : Name) : Node := iri (Namespaces.ex ++ name.text)

end DispatchCoverage.Node

import DispatchCoverage.Graph.Address
import DispatchCoverage.Graph.ExchangeError
import DispatchCoverage.Text.Blank
import DispatchCoverage.Text.XmlName

/-!
# Graphs in markup

RDF/XML describes each resource by an element for every property, whose name is
the name of the property behind a mark for its namespace. The namespaces are
stated for all properties, and as they are, so that their entities and blanks are
read as markup. Descriptions of literals are left out. A document may be written
that is no XML, or that has elements which are not allowed.
-/

namespace DispatchCoverage

namespace Markup

/-- Whether XML allows a character. -/
def isAllowed (c : Char) : Bool :=
  if c.toNat < 0x20 then c = '\t' || c = '\n' || c = '\r' else c.toNat ≠ 0xFFFE && c.toNat ≠ 0xFFFF

/-- The value of a hexadecimal digit. -/
def hexDigit? (c : Char) : Option Nat :=
  if c.isDigit then some (c.toNat - '0'.toNat)
  else if 'a' ≤ c && c ≤ 'f' then some (c.toNat - 'a'.toNat + 10)
  else if 'A' ≤ c && c ≤ 'F' then some (c.toNat - 'A'.toNat + 10)
  else none

/-- The number that some digits of a base stand for. -/
def number? (base : Nat) (digits : List Char) : Option Nat :=
  if digits.isEmpty then none
  else digits.foldlM (fun n c => (hexDigit? c).bind fun d =>
    if d < base then some (base * n + d) else none) 0

/-- The character with a number, if XML allows it. -/
def charNumbered? (number : Nat) : Option Char :=
  let c := Char.ofNat number
  if c.toNat = number && isAllowed c then some c else none

/-- The character that an entity stands for. -/
def entity? : List Char → Option Char
  | '#' :: 'x' :: digits => (number? 16 digits).bind charNumbered?
  | '#' :: digits => (number? 10 digits).bind charNumbered?
  | ['a', 'm', 'p'] => some '&'
  | ['l', 't'] => some '<'
  | ['g', 't'] => some '>'
  | ['q', 'u', 'o', 't'] => some '"'
  | ['a', 'p', 'o', 's'] => some '\''
  | _ => none

/-- The characters of an attribute behind the beginning of an entity, if there is
one. Blanks of all kinds are read as spaces. -/
def attributeBehind? : Option (List Char) → List Char → Option (List Char)
  | none, [] => some []
  | some _, [] => none
  | some entity, c :: cs =>
    if c = ';' then do
      return (← entity? entity.reverse) :: (← attributeBehind? none cs)
    else attributeBehind? (some (c :: entity)) cs
  | none, c :: cs =>
    if c = '&' then attributeBehind? (some []) cs
    else if c = '<' || c = '"' || !isAllowed c then none
    else do return (if c.toNat < 0x20 then ' ' else c) :: (← attributeBehind? none cs)

/-- The text of an attribute as it is read. -/
def attribute? (text : String) : Option String :=
  (attributeBehind? none text.toList).map String.ofList

/-- The namespace and the name that a property is split into. -/
def parts (property : Node) : Except ExchangeError (String × String) :=
  let text := property.nameText
  if !isPlainAddress text then .error (.improper property)
  else
    match Address.split? Address.startsName text with
    | none =>
      .error (if Namespaces.isNamespace text then .nameless property else .unsplittable property)
    | some (space, name) =>
      if Address.isStrictName name then .ok (space, name)
      else
        match Address.split? Address.startsStrictName text with
        | some parts => .ok parts
        | none => .error (.nameless property)

/-- The namespaces without a short form, in the order in which they were
stated. -/
def newSpaces (parts : List (String × String)) : List String :=
  ((parts.map Prod.fst).filter (fun space => !Namespaces.isNamespace space)).reverse.eraseDups

/-- The mark for a namespace without a short form. -/
def mark (spaces : List String) (space : String) : String :=
  "ns" ++ toString (spaces.idxOf space + 1)

/-- Whether a namespace can be stated: what is read has no space. -/
def isStatable (space : String) : Bool :=
  (attribute? space).any fun text => !text.toList.contains ' '

/-- The words of a text. -/
def words : List Char → List (List Char)
  | [] => []
  | c :: cs =>
    if Text.isBlank c then words cs
    else
      match cs with
      | [] => [[c]]
      | d :: _ =>
        if Text.isBlank d then [c] :: words cs
        else
          match words cs with
          | word :: more => (c :: word) :: more
          | [] => [[c]]

/-- The address of a property as it is read. Namespace, name and mark are read
as words: of three words the last is the mark, and of any other number all
belong to the address. -/
def addressRead (spaces : List String) (parts : String × String) : String :=
  let space := (attribute? parts.1).getD ""
  let text := space ++ " " ++ parts.2 ++ " " ++ mark spaces parts.1
  String.ofList <|
    match words text.toList with
    | [space, name, _] => space ++ name
    | found => found.flatten

/-- The names of properties that have a meaning of their own in markup. -/
def reservedNames : List String :=
  ["RDF", "ID", "about", "parseType", "resource", "nodeID", "datatype", "Description",
    "aboutEach", "aboutEachPrefix", "bagID"]

/-- Whether an address is reserved for markup. -/
def isReserved (address : String) : Bool :=
  reservedNames.any (fun name => address == Namespaces.rdf ++ name)

/-- A resource or a value as it is read. Labels are stated as they are. -/
def nodeRead? (node : Node) : Option Node :=
  match node with
  | .blank (.labelled label) => (attribute? label).map fun label => .blank (.labelled label)
  | _ => if node.nameText.toList.all isAllowed then some node else none

/-- Whether a node is anything but a blank node whose label is no name. -/
def hasStrictLabel : Node → Bool
  | .blank (.labelled label) => Address.isStrictName label
  | _ => true

end Markup

namespace Graph

/-- A property of a triple as it is read, where its address is given: the next
member of a container is numbered among the values of that property. -/
def propertyRead (g : Graph) (t : Triple) (address : String) : Node :=
  if Node.iri address = .li then
    let members := (g.objects (some t.subject) (some t.predicate)).reverse
    .containerMember (members.idxOf t.object + 1)
  else .iri address

/-- A triple as it is read from markup. -/
def markupTriple (g : Graph) (spaces : List String) (t : Triple) (parts : String × String) :
    Except ExchangeError Triple := do
  match Markup.nodeRead? t.subject, Markup.nodeRead? t.object with
  | some subject, some object =>
    let address := Markup.addressRead spaces parts
    if !Text.isXmlName parts.2 then throw .malformed
    if Markup.isReserved address then throw .misplaced
    if !Markup.hasStrictLabel subject || !Markup.hasStrictLabel object then throw .misplaced
    return ⟨subject, g.propertyRead t address, object⟩
  | _, _ => throw .malformed

/-- A graph read back from RDF/XML. -/
def throughMarkup (g : Graph) : Except ExchangeError Graph := do
  let parts ← g.triples.mapM fun t => Markup.parts t.predicate
  if !parts.all (fun parts => Markup.isStatable parts.1) then throw .malformed
  let said := (g.triples.zip parts).filter (fun entry => !entry.1.subject.isLiteral)
  let read ← said.mapM fun (t, own) => g.markupTriple (Markup.newSpaces parts) t own
  return read.foldr (fun t copy => copy.insert t) .empty

end Graph

end DispatchCoverage

/-!
# Graphs of triples

A graph is a finite set of triples of nodes. A node is a resource with an
address, a blank node without one, or a literal. Questions to a graph leave
out the parts of a triple that are asked for.
-/

namespace DispatchCoverage

/-- A blank node: one made by the library, or one that a caller has labelled. -/
inductive BlankNode where
  /-- The blank node with a running number. -/
  | fresh (number : Nat)
  /-- The blank node with a label. -/
  | labelled (label : String)
  deriving DecidableEq

/-- A literal value. Only plain texts, truth values and integers are taken in;
values of other types, such as fractions and dates, and texts that are marked
with a language are left out. None of them is ever written to a graph of
checks, so no list of nodes there ends at one. -/
inductive Literal where
  /-- A plain text. -/
  | text (s : String)
  /-- A truth value. -/
  | truth (b : Bool)
  /-- An integer. -/
  | integer (i : Int)
  deriving DecidableEq

namespace Literal

/-- The text of a literal. -/
def lexical : Literal → String
  | text s => s
  | truth b => if b then "true" else "false"
  | integer i => toString i

/-- Whether a literal is the empty text, false or zero. -/
def isFalsy : Literal → Bool
  | text s => s == ""
  | truth b => !b
  | integer i => i == 0

end Literal

/-- A node of a graph. -/
inductive Node where
  /-- A resource with an address. -/
  | iri (address : String)
  /-- A resource without an address. -/
  | blank (id : BlankNode)
  /-- A literal. -/
  | literal (value : Literal)
  deriving DecidableEq

namespace Node

/-- Whether a node is an empty, false or zero literal, or a resource with an
empty address or label. -/
def isFalsy : Node → Bool
  | iri address => address == ""
  | blank (.labelled label) => label == ""
  | blank (.fresh _) => false
  | literal value => value.isFalsy

/-- Whether a node is a blank node. -/
def isBlank : Node → Bool
  | blank _ => true
  | _ => false

/-- Whether a node is a literal. -/
def isLiteral : Node → Bool
  | literal _ => true
  | _ => false

/-- The text of a node: its address, label or literal text. -/
def nameText : Node → String
  | iri address => address
  | blank (.labelled label) => label
  | blank (.fresh number) => "N" ++ toString number
  | literal value => value.lexical

end Node

/-- A statement about two nodes. -/
structure Triple where
  /-- What the statement is about. -/
  subject : Node
  /-- The property that is stated. -/
  predicate : Node
  /-- The value of the property. -/
  object : Node
  deriving DecidableEq

/-- Whether a triple has the given parts; parts left out fit any node. -/
def Triple.fits (subject predicate object : Option Node) (t : Triple) : Bool :=
  subject.all (· == t.subject) && predicate.all (· == t.predicate) && object.all (· == t.object)

/-- A finite set of triples. -/
structure Graph where
  /-- The triples, the latest first. -/
  triples : List Triple
  /-- No triple is listed twice. -/
  nodup : triples.Nodup

namespace Graph

/-- The graph without triples. -/
def empty : Graph := ⟨[], .nil⟩

instance : Membership Triple Graph where
  mem g t := t ∈ g.triples

instance (g : Graph) (t : Triple) : Decidable (t ∈ g) :=
  inferInstanceAs (Decidable (t ∈ g.triples))

/-- The number of triples. -/
def size (g : Graph) : Nat := g.triples.length

/-- Add a triple, unless the graph holds it. -/
def insert (g : Graph) (t : Triple) : Graph :=
  if h : t ∈ g.triples then g else ⟨t :: g.triples, List.nodup_cons.2 ⟨h, g.nodup⟩⟩

/-- Adding a triple adds exactly that triple. -/
theorem mem_insert {g : Graph} {t u : Triple} : u ∈ g.insert t ↔ u = t ∨ u ∈ g := by
  show u ∈ (g.insert t).triples ↔ u = t ∨ u ∈ g.triples
  unfold insert
  split
  · rename_i h
    exact ⟨.inr, fun hu => hu.elim (fun e => e ▸ h) id⟩
  · exact List.mem_cons

/-- Remove the triples that have the given parts. -/
def remove (g : Graph) (subject predicate object : Option Node) : Graph :=
  ⟨g.triples.filter (fun t => !t.fits subject predicate object), g.nodup.filter _⟩

/-- The values of a property, one for each triple. -/
def objects (g : Graph) (subject predicate : Option Node) : List Node :=
  (g.triples.filter (Triple.fits subject predicate none)).map Triple.object

/-- The value of a property that was stated first. -/
def earliest? (g : Graph) (subject predicate : Node) : Option Node :=
  (g.objects (some subject) (some predicate)).getLast?

/-- The resources with a value of a property, one for each triple. -/
def subjects (g : Graph) (predicate object : Option Node) : List Node :=
  (g.triples.filter (Triple.fits none predicate object)).map Triple.subject

/-- The values of a property of a resource are those that the graph states. -/
theorem mem_objects {g : Graph} {s p o : Node} :
    o ∈ g.objects (some s) (some p) ↔ Triple.mk s p o ∈ g := by
  show o ∈ (g.triples.filter _).map _ ↔ Triple.mk s p o ∈ g.triples
  simp only [List.mem_map, List.mem_filter, Triple.fits, Option.all_some, Option.all_none,
    Bool.and_true, Bool.and_eq_true, beq_iff_eq]
  constructor
  · rintro ⟨t, ⟨ht, rfl, rfl⟩, rfl⟩
    exact ht
  · exact fun h => ⟨_, ⟨h, rfl, rfl⟩, rfl⟩

end Graph

end DispatchCoverage

import DispatchCoverage.Surface.Token
import DispatchCoverage.Surface.Vocabulary

/-!
# The written language

The words of the language and its phrases. A word is a text that stands for
itself as one token and can be a name. A phrase is a list of tokens that
derives a tag, a set or a signature; the rules below say which, without
reading from left to right.
-/

namespace DispatchCoverage.Surface

/-- Whether a text can be written as a name: it is not empty, has no blank and
no separator, and is not the sign of the empty set. -/
def isWord (text : String) : Bool :=
  text != "" && text != "⊥" &&
    text.toList.all (fun c => !Text.isBlank c && !separators.toList.contains c)

/-- A token that stands for a name in a vocabulary. -/
structure NameToken (v : Vocabulary) (token : String) (n : Name) : Prop where
  /-- The token is no part of the list of separators. -/
  notReserved : isReserved token = false
  /-- The token is no sign of the empty set. -/
  notEmptySign : isEmptySign token = false
  /-- The token is the text of the name. -/
  text_eq : n.text = token
  /-- A closed vocabulary knows the name. -/
  registered : v.closed = true → n ∈ v.names

mutual

/-- Tokens that derive a tag: a name, or a name with one or more tags in
brackets. -/
inductive DerivesTag (v : Vocabulary) : List String → Tag → Prop where
  /-- A name alone. -/
  | atom {token : String} {n : Name} : NameToken v token n → DerivesTag v [token] (Tag.atom n)
  /-- A name with arguments. -/
  | applied {token : String} {n : Name} {inner : List String} {ts : List Tag} :
    NameToken v token n → DerivesTags v "," inner ts →
      DerivesTag v (token :: "(" :: (inner ++ [")"])) (Tag.mk n ts)

/-- Tokens that derive one or more tags with a mark between them. -/
inductive DerivesTags (v : Vocabulary) : String → List String → List Tag → Prop where
  /-- A single tag. -/
  | one {mark : String} {tokens : List String} {t : Tag} :
    DerivesTag v tokens t → DerivesTags v mark tokens [t]
  /-- A tag, the mark and more tags. -/
  | more {mark : String} {tokens rest : List String} {t : Tag} {ts : List Tag} :
    DerivesTag v tokens t → DerivesTags v mark rest ts →
      DerivesTags v mark (tokens ++ mark :: rest) (t :: ts)

end

/-- Tokens that derive a set: a sign of the empty set, or one or more tags with
bars between them. -/
inductive DerivesSet (v : Vocabulary) : List String → TypeSet → Prop where
  /-- A sign of the empty set. -/
  | empty {token : String} : isEmptySign token = true → DerivesSet v [token] ∅
  /-- The set of some tags. -/
  | ofTags {tokens : List String} {ts : List Tag} :
    DerivesTags v "|" tokens ts → DerivesSet v tokens (Ascending.ofList ts)

/-- Tokens that derive one or more sets with commas between them. -/
inductive DerivesSets (v : Vocabulary) : List String → List TypeSet → Prop where
  /-- A single set. -/
  | one {tokens : List String} {p : TypeSet} : DerivesSet v tokens p → DerivesSets v tokens [p]
  /-- A set, a comma and more sets. -/
  | more {tokens rest : List String} {p : TypeSet} {ps : List TypeSet} :
    DerivesSet v tokens p → DerivesSets v rest ps →
      DerivesSets v (tokens ++ "," :: rest) (p :: ps)

/-- Tokens that derive a signature: sets in brackets, which may be none. -/
inductive DerivesSignature (v : Vocabulary) : List String → Signature → Prop where
  /-- The brackets alone. -/
  | empty : DerivesSignature v ["(", ")"] ⟨[]⟩
  /-- One or more sets in brackets. -/
  | ofSets {tokens : List String} {ps : List TypeSet} :
    DerivesSets v tokens ps → DerivesSignature v ("(" :: (tokens ++ [")"])) ⟨ps⟩

/-- Tokens that derive the operand of an interface line: a signature, with a
name in front of it or none. -/
inductive DerivesInterface (v : Vocabulary) : List String → Option Name → Signature → Prop where
  /-- A signature alone. -/
  | unnamed {tokens : List String} {s : Signature} :
    DerivesSignature v tokens s → DerivesInterface v tokens none s
  /-- A name and a signature. Even a closed vocabulary need not know the name. -/
  | named {n : Name} {tokens : List String} {s : Signature} :
    isReserved n.text = false → isEmptySign n.text = false → DerivesSignature v tokens s →
      DerivesInterface v (n.text :: tokens) (some n) s

/-- A token stands for a name exactly when it is no sign of its own and the
vocabulary gives the name. -/
theorem nameToken_iff {v : Vocabulary} {token : String} {n : Name} :
    NameToken v token n ↔
      isReserved token = false ∧ isEmptySign token = false ∧ v.name? token = some n := by
  rw [Vocabulary.name?_eq_some_iff]
  exact ⟨fun h => ⟨h.notReserved, h.notEmptySign, h.text_eq, h.registered⟩,
    fun ⟨hr, he, ht, hv⟩ => ⟨hr, he, ht, hv⟩⟩

end DispatchCoverage.Surface

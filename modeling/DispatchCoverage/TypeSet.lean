import DispatchCoverage.TypeExpr

/-!
# Type sets

A type set holds the tags that one parameter position accepts. A set is built
from tags and alternations, which dissolve into their members. It is written
as its members in the order of their written forms.
-/

namespace DispatchCoverage

/-- The tags that are accepted at one parameter position. -/
abbrev TypeSet := Ascending Tag

namespace TypeSet

/-- The set of the tags that some types stand for. -/
def ofTypes (types : List TypeExpr) : TypeSet :=
  Ascending.ofList (types.flatMap TypeExpr.tags)

/-- A set of types holds the tags of the types. -/
theorem mem_ofTypes {types : List TypeExpr} {t : Tag} :
    t ∈ ofTypes types ↔ ∃ x ∈ types, t ∈ x.tags := by
  simp [ofTypes, List.mem_flatMap]

/-- The set with the tags of one more type. -/
def insertType (x : TypeExpr) (s : TypeSet) : TypeSet :=
  x.tags.foldl (fun s t => s.insert t) s

/-- Adding a type adds its tags. -/
theorem mem_insertType {x : TypeExpr} {s : TypeSet} {t : Tag} :
    t ∈ insertType x s ↔ t ∈ x.tags ∨ t ∈ s := by
  unfold insertType
  generalize x.tags = l
  induction l generalizing s with
  | nil => simp
  | cons a r ih => simp [ih]; grind

/-- Texts in ascending order of code points, with repetitions. -/
def sortTexts (texts : List String) : List String :=
  texts.mergeSort (fun a b => (compare a b).isLE)

/-- The written form of a set: the written forms of its members in ascending
order, or the sign of the empty set. -/
def text (style : TextStyle) (s : TypeSet) : String :=
  if s.isEmpty then "⊥" else style.alt.intercalate (sortTexts (s.toList.map (Tag.text style)))

end TypeSet

end DispatchCoverage

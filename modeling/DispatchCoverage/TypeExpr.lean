import DispatchCoverage.Tag

/-!
# Types as they are written at a parameter

At a parameter stands a tag or an alternation of tags. An alternation holds
its tags once each, in the order in which they first occur; alternations
inside an alternation dissolve into their members.
-/

namespace DispatchCoverage

/-- The values of a list, each once, in the order of first occurrence. -/
def firstOccurrences {α : Type} [DecidableEq α] : List α → List α
  | [] => []
  | a :: rest => a :: (firstOccurrences rest).filter (· ≠ a)

/-- Dropping repetitions drops no value. -/
@[simp] theorem mem_firstOccurrences {α : Type} [DecidableEq α] {a : α} {l : List α} :
    a ∈ firstOccurrences l ↔ a ∈ l := by
  induction l with
  | nil => rfl
  | cons b rest ih => by_cases h : a = b <;> simp [firstOccurrences, ih, h]

/-- No value is repeated after repetitions are dropped. -/
theorem nodup_firstOccurrences {α : Type} [DecidableEq α] (l : List α) :
    (firstOccurrences l).Nodup := by
  induction l with
  | nil => exact .nil
  | cons b rest ih => exact List.nodup_cons.2 ⟨by simp, ih.filter _⟩

/-- An alternation of tags, as in `A | B(C)`. -/
structure TypeUnion where
  /-- The tags, in the order of first occurrence. -/
  members : List Tag
  /-- No tag occurs twice. -/
  nodup : members.Nodup

/-- Anything that can be written at a parameter. -/
inductive TypeExpr where
  /-- A single tag. -/
  | tag (t : Tag)
  /-- An alternation of tags. -/
  | union (u : TypeUnion)

namespace TypeExpr

/-- The tags that a type stands for, in order. -/
def tags : TypeExpr → List Tag
  | tag t => [t]
  | union u => u.members

end TypeExpr

namespace TypeUnion

/-- The alternation of several types. -/
def ofTypes (types : List TypeExpr) : TypeUnion :=
  ⟨firstOccurrences (types.flatMap TypeExpr.tags), nodup_firstOccurrences _⟩

/-- An alternation of types holds the tags of the types. -/
theorem mem_members_ofTypes {types : List TypeExpr} {t : Tag} :
    t ∈ (ofTypes types).members ↔ ∃ x ∈ types, t ∈ x.tags := by
  simp [ofTypes, List.mem_flatMap]

/-- The number of tags in an alternation. -/
def size (u : TypeUnion) : Nat := u.members.length

/-- The written form of an alternation: its tags in order, or the sign of the
empty type if there are none. -/
def text (style : TextStyle) (u : TypeUnion) : String :=
  if u.members.isEmpty then "⊥" else style.alt.intercalate (u.members.map (Tag.text style))

end TypeUnion

namespace TypeExpr

/-- The written form of a type. -/
def text (style : TextStyle) : TypeExpr → String
  | tag t => t.text style
  | union u => u.text style

/-- The alternation of two types. -/
def or (x y : TypeExpr) : TypeUnion := .ofTypes [x, y]

end TypeExpr

end DispatchCoverage

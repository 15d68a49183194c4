import DispatchCoverage.Signature

/-!
# Tags that occur in others

A tag occurs in itself, and the tags that occur in its arguments occur in it.
The tags that occur in a set are those that occur in its members, and those
that occur in a signature are those that occur in its sets.
-/

namespace DispatchCoverage

namespace Tag

mutual

/-- The tags that occur in a tag: itself, and those in its arguments. -/
def parts : Tag → List Tag
  | mk n ts => mk n ts :: partsOf ts

/-- The tags that occur in several tags. -/
def partsOf : List Tag → List Tag
  | [] => []
  | t :: ts => parts t ++ partsOf ts

end

/-- The tags that occur in several tags are those that occur in each of
them. -/
theorem partsOf_eq_flatMap (ts : List Tag) : partsOf ts = ts.flatMap parts := by
  induction ts with
  | nil => rfl
  | cons t ts ih => rw [partsOf, ih, List.flatMap_cons]

/-- A tag occurs in another if it is the other one, or occurs in one of its
arguments. -/
theorem mem_parts_mk {u : Tag} {n : Name} {ts : List Tag} :
    u ∈ (mk n ts).parts ↔ u = mk n ts ∨ ∃ t ∈ ts, u ∈ t.parts := by
  rw [parts, partsOf_eq_flatMap, List.mem_cons, List.mem_flatMap]

/-- Every tag occurs in itself. -/
theorem mem_parts_self (t : Tag) : t ∈ t.parts := by
  obtain ⟨n, ts⟩ := t
  exact mem_parts_mk.2 (.inl rfl)

end Tag

/-- The tags that occur in a set. -/
def TypeSet.parts (s : TypeSet) : List Tag := s.toList.flatMap Tag.parts

/-- The tags that occur in a signature. -/
def Signature.parts (s : Signature) : List Tag := s.parameters.flatMap TypeSet.parts

/-- A tag occurs in a set if it occurs in a member. -/
theorem TypeSet.mem_parts {s : TypeSet} {u : Tag} :
    u ∈ TypeSet.parts s ↔ ∃ t ∈ s, u ∈ t.parts := List.mem_flatMap

/-- A tag occurs in a signature if it occurs in one of its sets. -/
theorem Signature.mem_parts {s : Signature} {u : Tag} :
    u ∈ s.parts ↔ ∃ p ∈ s.parameters, u ∈ TypeSet.parts p := List.mem_flatMap

end DispatchCoverage

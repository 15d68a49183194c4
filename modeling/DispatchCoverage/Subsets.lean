/-!
# Subsets by size

The subsets of a list of items, from small to large, and among those of one
size in lexicographic order of the chosen places.
-/

namespace DispatchCoverage

/-- The ways to choose n items of a list, keeping their order. -/
def choices {α : Type} : Nat → List α → List (List α)
  | 0, _ => [[]]
  | _ + 1, [] => []
  | n + 1, a :: rest => (choices n rest).map (a :: ·) ++ choices (n + 1) rest

/-- All subsets of a list of items, from small to large. -/
def subsets {α : Type} (items : List α) : List (List α) :=
  (List.range (items.length + 1)).flatMap (choices · items)

/-- The choices of n items are the sublists of length n. -/
theorem mem_choices {α : Type} {n : Nat} {items v : List α} :
    v ∈ choices n items ↔ v.Sublist items ∧ v.length = n := by
  induction items generalizing n v with
  | nil =>
    cases n with
    | zero => simp [choices]
    | succ n =>
      have hlen : v.Sublist [] → v.length ≠ n + 1 := by
        intro h hn
        rw [List.sublist_nil.1 h] at hn
        cases hn
      simpa [choices] using hlen
  | cons a rest ih =>
    cases n with
    | zero =>
      rw [choices, List.mem_singleton, List.length_eq_zero_iff]
      constructor
      · rintro rfl
        exact ⟨List.nil_sublist _, rfl⟩
      · exact fun h => h.2
    | succ n =>
      rw [choices, List.mem_append, List.mem_map, ih, List.sublist_cons_iff]
      constructor
      · rintro (⟨w, hw, rfl⟩ | ⟨hs, hl⟩)
        · have hw := ih.1 hw
          exact ⟨.inr ⟨w, rfl, hw.1⟩, by rw [List.length_cons, hw.2]⟩
        · exact ⟨.inl hs, hl⟩
      · rintro ⟨hs | ⟨w, rfl, hw⟩, hl⟩
        · exact .inr ⟨hs, hl⟩
        · rw [List.length_cons] at hl
          exact .inl ⟨w, ih.2 ⟨hw, by omega⟩, rfl⟩

/-- The subsets of a list of items are its sublists. -/
theorem mem_subsets {α : Type} {items v : List α} : v ∈ subsets items ↔ v.Sublist items := by
  rw [subsets, List.mem_flatMap]
  constructor
  · rintro ⟨n, _, hv⟩
    exact (mem_choices.1 hv).1
  · intro h
    have hl := h.length_le
    exact ⟨v.length, List.mem_range.2 (by omega), mem_choices.2 ⟨h, rfl⟩⟩

end DispatchCoverage

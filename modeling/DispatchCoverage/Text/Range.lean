/-!
# Ranges of code points

A class of characters is listed as ranges of code points with both ends
included. In a table the ranges ascend and leave a gap between them, so that
there is one table for each class.
-/

namespace DispatchCoverage.Text

/-- Whether a character lies in one of some ranges. -/
def inRanges (ranges : List (Nat × Nat)) (c : Char) : Bool :=
  ranges.any (fun (lo, hi) => lo ≤ c.toNat && c.toNat ≤ hi)

/-- A character between the ends of a range lies in it. -/
theorem inRanges_of_mem {ranges : List (Nat × Nat)} {c : Char} {r : Nat × Nat} (h : r ∈ ranges)
    (hlo : r.1 ≤ c.toNat) (hhi : c.toNat ≤ r.2) : inRanges ranges c = true :=
  List.any_eq_true.2 ⟨r, h, by simp [hlo, hhi]⟩

/-- Whether ranges ascend with a gap between each and the next. -/
def areAscending (ranges : List (Nat × Nat)) : Bool :=
  ranges.all (fun r => r.1 ≤ r.2) &&
    (ranges.zip ranges.tail).all (fun (a, b) => a.2 + 1 < b.1)

end DispatchCoverage.Text

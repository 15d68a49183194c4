import DispatchCoverage.Proofs.Course

/-!
# Accounting for uncovered tuples

At every state between two rounds each visited signature is accounted for: it
waits on the frontier, it is a leaf, or each of its uncovered tuples lies in a
smaller visited signature. The last case is what a step that dismisses a
signature relies on, and it stays true although the smaller signatures may
still be pending. By induction on the size, every uncovered tuple of the
interface lies in a leaf or in a signature on the frontier.
-/

namespace DispatchCoverage

/-- Whether no implementation accepts a tuple. -/
def Uncovered (implementations : List Signature) (tuple : List Tag) : Prop :=
  ∀ i ∈ implementations, ¬ i.Accepts tuple

/-- Whether a visited signature waits, is a leaf, or has its uncovered tuples
in smaller visited signatures. -/
def IsAccounted (implementations : List Signature) (p : Progress) (s : Signature) : Prop :=
  s ∈ p.frontier ∨ s ∈ p.leaves ∨ ∀ tuple, s.Accepts tuple → Uncovered implementations tuple →
    ∃ t ∈ p.visited, t.size < s.size ∧ t.Accepts tuple

section Residuals

variable {implementations : List Signature} {visited : SignatureSet} {s : Signature}
  {tuple : List Tag} (harity : ∀ i ∈ implementations, s.arity = i.arity)
  (hs : s.Accepts tuple) (huncovered : Uncovered implementations tuple)
include harity hs huncovered

/-- An uncovered tuple of a settled signature lies in a visited residual. -/
theorem IsSettled.exists_accepts (h : IsSettled implementations visited s) :
    ∃ t ∈ visited, IsResidual implementations s t ∧ t.Accepts tuple := by
  obtain ⟨i, hi, hsettles⟩ := h
  have hrefused : ¬ i.Accepts tuple := huncovered i hi
  have hne : s ≠ i := by
    intro hsi
    rw [← hsi] at hrefused
    exact hrefused hs
  obtain ⟨hm, hvisited⟩ := hsettles.resolve_left hne
  obtain ⟨t, ht, hat⟩ := Signature.exists_residual_accepts (harity i hi) hs hrefused
  exact ⟨t, hvisited t ht, ⟨i, hi, hm, ht⟩, hat⟩

/-- An uncovered tuple of a signature that is neither settled nor unmatched
lies in a residual. -/
theorem exists_isResidual_accepts (hsettled : ¬ IsSettled implementations visited s)
    (hunmatched : ¬ IsUnmatched implementations s) :
    ∃ t, IsResidual implementations s t ∧ t.Accepts tuple := by
  obtain ⟨_, _, i, hi, hm, _⟩ := (exists_isResidual_iff hsettled).2 hunmatched
  obtain ⟨t, ht, hat⟩ :=
    Signature.exists_residual_accepts (harity i hi) hs (huncovered i hi)
  exact ⟨t, ⟨i, hi, hm, ht⟩, hat⟩

end Residuals

section Reached

variable {implementations : List Signature} {interface : Signature} {p : Progress}

/-- One round accounts for every signature of the frontier. -/
theorem IsRound.isAccounted {next : Progress} (h : IsRound implementations p next) {s : Signature}
    (harity : ∀ i ∈ implementations, s.arity = i.arity) (hs : s ∈ p.frontier) :
    IsAccounted implementations next s := by
  by_cases hunmatched : IsUnmatched implementations s
  · exact .inr (.inl ((h.mem_leaves s).2 (.inr ⟨hs, hunmatched⟩)))
  · refine .inr (.inr fun tuple hst huncovered => ?_)
    by_cases hsettled : IsSettled implementations p.visited s
    · obtain ⟨t, ht, hr, hat⟩ := hsettled.exists_accepts harity hst huncovered
      exact ⟨t, (h.mem_visited t).2 (.inr ht), hr.size_lt, hat⟩
    · obtain ⟨t, hr, hat⟩ :=
        exists_isResidual_accepts harity hst huncovered hsettled hunmatched
      have ht : t ∈ next.visited := by
        rw [h.mem_visited, h.mem_frontier]
        by_cases hv : t ∈ p.visited
        · exact .inr hv
        · exact .inl ⟨hv, s, hs, hsettled, hr⟩
      exact ⟨t, ht, hr.size_lt, hat⟩

/-- At every reached state all visited signatures are accounted for. -/
theorem Reached.isAccounted (harity : ∀ i ∈ implementations, i.arity = interface.arity)
    (h : Reached implementations interface p) {s : Signature} (hs : s ∈ p.visited) :
    IsAccounted implementations p s := by
  induction h with
  | start => exact .inl (mem_frontier_start.2 (mem_visited_start.1 hs))
  | @round p next hp hne hround ih =>
    rcases (hround.mem_visited s).1 hs with hnew | hold
    · exact .inl hnew
    · rcases ih hold with hfrontier | hleaf | hsmaller
      · exact hround.isAccounted (fun i hi => hp.arity_eq harity hold hi) hfrontier
      · exact .inr (.inl ((hround.mem_leaves s).2 (.inl hleaf)))
      · refine .inr (.inr fun tuple hst huncovered => ?_)
        obtain ⟨t, ht, hlt, hat⟩ := hsmaller tuple hst huncovered
        exact ⟨t, (hround.mem_visited t).2 (.inr ht), hlt, hat⟩

/-- Every uncovered tuple of a visited signature lies in a leaf or in a pending
signature. -/
theorem Reached.exists_leaf_or_pending (harity : ∀ i ∈ implementations, i.arity = interface.arity)
    (h : Reached implementations interface p) {tuple : List Tag}
    (huncovered : Uncovered implementations tuple) {s : Signature} (hs : s ∈ p.visited)
    (hst : s.Accepts tuple) : ∃ t, (t ∈ p.leaves ∨ t ∈ p.frontier) ∧ t.Accepts tuple := by
  -- Visited signatures may justify each other in a circle only if sizes could
  -- grow again, so the size carries the induction and not the round.
  induction hn : s.size using Nat.strongRecOn generalizing s with
  | ind n ih =>
    rcases h.isAccounted harity hs with hfrontier | hleaf | hsmaller
    · exact ⟨s, .inr hfrontier, hst⟩
    · exact ⟨s, .inl hleaf, hst⟩
    · obtain ⟨t, ht, hlt, hat⟩ := hsmaller tuple hst huncovered
      exact ih t.size (by omega) ht hat rfl

/-- The leaves are visited signatures that no implementation matches. -/
theorem Reached.mem_leaves (h : Reached implementations interface p) {s : Signature}
    (hs : s ∈ p.leaves) : s ∈ p.visited ∧ IsUnmatched implementations s := by
  induction h with
  | start => exact absurd hs (Ascending.not_mem_empty s)
  | @round p next hp hne hround ih =>
    rcases (hround.mem_leaves s).1 hs with hold | hnew
    · have hv := ih hold
      exact ⟨(hround.mem_visited s).2 (.inr hv.1), hv.2⟩
    · exact ⟨(hround.mem_visited s).2 (.inr (hp.mem_visited hnew.1)), hnew.2⟩

/-- What a leaf accepts is an uncovered tuple of the interface. -/
theorem Reached.uncovered_of_leaf (harity : ∀ i ∈ implementations, i.arity = interface.arity)
    (h : Reached implementations interface p) {s : Signature} (hs : s ∈ p.leaves)
    {tuple : List Tag} (hst : s.Accepts tuple) :
    interface.Accepts tuple ∧ Uncovered implementations tuple := by
  obtain ⟨hv, hunmatched⟩ := h.mem_leaves hs
  refine ⟨(h.within harity hv).accepts hst, fun i hi hit => ?_⟩
  have hm : s.meets i = true :=
    (Signature.meets_iff_exists_accepts (h.arity_eq harity hv hi)).2 ⟨tuple, hst, hit⟩
  rw [(hunmatched i hi).2] at hm
  cases hm

end Reached

end DispatchCoverage

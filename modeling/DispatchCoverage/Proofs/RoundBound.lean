import DispatchCoverage.Proofs.Exactness

/-!
# How many rounds an analysis takes

A rank that every residual lowers bounds the number of rounds: along the way to
a pending signature each round has lowered the rank at least once. Two ranks do
this. A residual overlaps fewer implementations than its signature, since it is
disjoint from the one that it was split by and lies within the signature; and
it has fewer tags, of which an inhabited signature keeps at least one at every
position.
-/

namespace DispatchCoverage

/-- The distinct implementations that overlap a signature. -/
def overlapping (implementations : List Signature) (s : Signature) : SignatureSet :=
  (Ascending.ofList implementations).filter s.meets

/-- The number of tags that a signature has beyond the first one, summed over
all positions. -/
def Signature.slack (s : Signature) : Nat := s.parameters.foldr (fun p n => p.size - 1 + n) 0

/-- The greatest number of rounds that an analysis can take. -/
def roundBound (implementations : List Signature) (interface : Signature) : Nat :=
  1 + min (overlapping implementations interface).size interface.slack

/-- The overlapping implementations are implementations that overlap. -/
theorem mem_overlapping {implementations : List Signature} {s i : Signature} :
    i ∈ overlapping implementations s ↔ i ∈ implementations ∧ s.meets i = true := by
  rw [overlapping, Ascending.mem_filter, Ascending.mem_ofList]

/-- No more implementations overlap than there are. -/
theorem size_overlapping_le (implementations : List Signature) (s : Signature) :
    (overlapping implementations s).size ≤ implementations.length := by
  have hfilter := Ascending.size_filter_le s.meets (Ascending.ofList implementations)
  have hlist := Ascending.size_ofList_le implementations
  exact Nat.le_trans hfilter hlist

/-- A residual overlaps fewer implementations than its signature. -/
theorem IsResidual.size_overlapping_lt {implementations : List Signature} {s t : Signature}
    (harity : ∀ i ∈ implementations, s.arity = i.arity) (h : IsResidual implementations s t) :
    (overlapping implementations t).size < (overlapping implementations s).size := by
  have hwithin : t.Within s := h.within harity
  obtain ⟨i, hi, hm, ht⟩ := h
  have hpart : overlapping implementations t =
      (overlapping implementations s).filter t.meets := by
    refine Ascending.ext_mem fun j => ?_
    rw [Ascending.mem_filter, mem_overlapping, mem_overlapping]
    constructor
    · intro hj
      have hsj := hwithin.meets (hwithin.1.trans (harity j hj.1)) hj.2
      exact ⟨⟨hj.1, hsj⟩, hj.2⟩
    · intro hj
      exact ⟨hj.1.1, hj.2⟩
  rw [hpart]
  exact Ascending.size_filter_lt (mem_overlapping.2 ⟨hi, hm⟩) (Signature.meets_residual (harity i hi) ht)

/-- An inhabited signature has one tag at every position and its slack. -/
theorem Signature.size_eq_slack_add_arity {s : Signature} (h : s.isInhabited = true) :
    s.size = s.slack + s.arity := by
  obtain ⟨ps⟩ := s
  change ps.all (fun p => !p.isEmpty) = true at h
  change ps.foldr (fun p n => p.size + n) 0 =
    ps.foldr (fun p n => p.size - 1 + n) 0 + ps.length
  induction ps with
  | nil => rfl
  | cons p ps ih =>
    rw [List.all_cons, Bool.and_eq_true] at h
    have hrest := ih h.2
    have hne : p.isEmpty = false := by simpa using h.1
    have hpos : 0 < p.size := by
      obtain ⟨a, ha⟩ := Ascending.isEmpty_eq_false_iff.1 hne
      exact List.length_pos_of_mem ha
    rw [List.foldr_cons, List.foldr_cons, List.length_cons, hrest]
    omega

/-- A residual has less slack than its signature, if that is inhabited. -/
theorem IsResidual.slack_lt {implementations : List Signature} {s t : Signature}
    (harity : ∀ i ∈ implementations, s.arity = i.arity) (hs : s.isInhabited = true)
    (h : IsResidual implementations s t) : t.slack < s.slack := by
  have hlt : t.size < s.size := h.size_lt
  have harities : t.arity = s.arity := (h.within harity).1
  rw [Signature.size_eq_slack_add_arity hs,
    Signature.size_eq_slack_add_arity (h.isInhabited harity)] at hlt
  omega

section Rank

variable {implementations : List Signature} {interface : Signature} {p : Progress}
  (harity : ∀ i ∈ implementations, i.arity = interface.arity)
  (hinhabited : interface.isInhabited = true) {rank : Signature → Nat}
  (hrank : ∀ s t, s.arity = interface.arity → s.isInhabited = true →
    IsResidual implementations s t → rank t < rank s)
include harity hinhabited hrank

/-- The ranks of pending signatures have fallen by the number of rounds. -/
theorem Reached.rank_add_rounds_le (h : Reached implementations interface p) {s : Signature}
    (hs : s ∈ p.frontier) : rank s + p.rounds ≤ rank interface := by
  induction h generalizing s with
  | start =>
    rw [mem_frontier_start.1 hs]
    exact Nat.le_refl _
  | @round p next hp hne hround ih =>
    obtain ⟨_, u, hu, _, hr⟩ := (hround.mem_frontier s).1 hs
    have hv := hp.mem_visited hu
    have hlt := hrank u s (hp.within harity hv).1 (hp.isInhabited harity hinhabited hv) hr
    have hle := ih hu
    rw [hround.rounds]
    omega

end Rank

/-- An analysis that has nothing left to check has taken a round. -/
theorem Reached.one_le_rounds {implementations : List Signature} {interface : Signature}
    {p : Progress} (h : Reached implementations interface p)
    (hempty : p.frontier.isEmpty = true) : 1 ≤ p.rounds := by
  cases h with
  | start =>
    rw [isEmpty_frontier_start] at hempty
    cases hempty
  | round _ _ hround =>
    rw [hround.rounds]
    omega

section Bound

variable {implementations : List Signature} {interface : Signature} {p : Progress}
  (harity : ∀ i ∈ implementations, i.arity = interface.arity)
  (hinhabited : interface.isInhabited = true)
include harity hinhabited

/-- A reached state with pending signatures counts fewer rounds than the
bound. -/
theorem Reached.rounds_lt_roundBound (h : Reached implementations interface p)
    (hne : p.frontier.isEmpty = false) : p.rounds < roundBound implementations interface := by
  obtain ⟨s, hs⟩ := Ascending.isEmpty_eq_false_iff.1 hne
  have hoverlapping := h.rank_add_rounds_le harity hinhabited (fun s t hs _ hr =>
    hr.size_overlapping_lt fun i hi => hs.trans (harity i hi).symm) hs
  have hslack := h.rank_add_rounds_le harity hinhabited (fun s t hs hin hr =>
    hr.slack_lt (fun i hi => hs.trans (harity i hi).symm) hin) hs
  rw [roundBound]
  omega

/-- No reached state counts more rounds than the bound. -/
theorem Reached.rounds_le_roundBound (h : Reached implementations interface p) :
    p.rounds ≤ roundBound implementations interface := by
  cases h with
  | start => exact Nat.zero_le _
  | round hp hne hround =>
    have hlt := hp.rounds_lt_roundBound harity hinhabited hne
    rw [hround.rounds]
    omega

end Bound

namespace Solver

/-- The analysis of an inhabited interface has a result whenever its budget,
if any, allows the bound. -/
theorem exists_finished (solver : Solver) {interface : Signature}
    (harity : ∀ i ∈ solver.implementations, i.arity = interface.arity)
    (hinhabited : interface.isInhabited = true)
    (hbudget : ∀ budget, solver.budget = some budget →
      roundBound solver.implementations interface ≤ budget.limit) :
    ∃ q, Reached solver.implementations interface q ∧ q.frontier.isEmpty = true ∧
      (solver.solve interface).result = .ok q.leaves ∧
      (solver.solve interface).rounds = q.rounds := by
  obtain ⟨q, hq, hends⟩ := exists_endsAt_solve harity hinhabited
  cases hends with
  | finished hempty hresult hrounds => exact ⟨q, hq, hempty, hresult, hrounds⟩
  | abandoned budget hsome hlimit hpending _ _ =>
    have hlt := hq.rounds_lt_roundBound harity hinhabited hpending
    have hle := hbudget budget hsome
    omega

/-- Without a budget the analysis of an inhabited interface takes at least one
round, and at most one more than the number of distinct implementations that
overlap the interface and than the slack of the interface. A budget that
allows so many rounds, or more rounds than there are implementations, is never
used up. -/
theorem solve_rounds_bounded {solver : Solver} {interface : Signature}
    (harity : ∀ i ∈ solver.implementations, i.arity = interface.arity)
    (hinhabited : interface.isInhabited = true) :
    (∃ leaves, ({ solver with budget := none }.solve interface).result = .ok leaves) ∧
      1 ≤ ({ solver with budget := none }.solve interface).rounds ∧
      ({ solver with budget := none }.solve interface).rounds ≤
        roundBound solver.implementations interface ∧
      ∀ budget : RoundBudget, (roundBound solver.implementations interface ≤ budget.limit ∨
          solver.implementations.length < budget.limit) →
        ∃ leaves, ({ solver with budget := some budget }.solve interface).result = .ok leaves := by
  have hnone : ∀ budget, ({ solver with budget := none } : Solver).budget = some budget →
      roundBound solver.implementations interface ≤ budget.limit := by
    intro budget hbudget
    cases hbudget
  obtain ⟨q, hq, hempty, hresult, hrounds⟩ :=
    exists_finished { solver with budget := none } harity hinhabited hnone
  refine ⟨⟨q.leaves, hresult⟩, ?_, ?_, fun limit hlimit => ?_⟩
  · rw [hrounds]
    exact hq.one_le_rounds hempty
  · rw [hrounds]
    exact hq.rounds_le_roundBound harity hinhabited
  · have hcount := size_overlapping_le solver.implementations interface
    have hsome : ∀ budget, ({ solver with budget := some limit } : Solver).budget = some budget →
        roundBound solver.implementations interface ≤ budget.limit := by
      intro budget hbudget
      cases hbudget
      rw [roundBound] at hlimit ⊢
      omega
    obtain ⟨q, _, _, hresult, _⟩ :=
      exists_finished { solver with budget := some limit } harity hinhabited hsome
    exact ⟨q.leaves, hresult⟩

/-- The square takes at most three rounds against its two corners, and three
rounds are always enough. -/
theorem solve_rounds_bounded_square :
    (∀ i ∈ (corners none).implementations, i.arity = square.arity) ∧
      square.isInhabited = true ∧ roundBound (corners none).implementations square = 3 ∧
      ((corners none).solve square).rounds ≤ 3 ∧
      ∃ leaves, ((corners (some ⟨3, by decide⟩)).solve square).result = .ok leaves := by
  have harity : ∀ i ∈ (corners none).implementations, i.arity = square.arity := by decide
  have hinhabited : square.isInhabited = true := by decide +kernel
  have hbound : roundBound (corners none).implementations square = 3 := by decide +kernel
  obtain ⟨_, _, hrounds, hbudget⟩ := solve_rounds_bounded harity hinhabited
  rw [hbound] at hrounds hbudget
  exact ⟨harity, hinhabited, hbound, hrounds, hbudget ⟨3, by decide⟩ (.inl (Nat.le_refl 3))⟩

end Solver

end DispatchCoverage

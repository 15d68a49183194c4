import DispatchCoverage.Proofs.Accounting

/-!
# Exactness of an analysis

Without a budget an analysis always has a result, and its leaves accept
exactly the tuples of the interface that no implementation accepts. When a
budget stops the analysis earlier, the leaves found so far are still right, and
every uncovered tuple that they lack lies in a signature that was still to be
checked, so checking those signatures later completes the answer.
-/

namespace DispatchCoverage

section Leaves

variable {implementations : List Signature} {interface : Signature} {p : Progress}
  (harity : ∀ i ∈ implementations, i.arity = interface.arity)
include harity

/-- A leaf overlaps no implementation. -/
theorem Reached.overlaps_leaf (h : Reached implementations interface p) {s : Signature}
    (hs : s ∈ p.leaves) {i : Signature} (hi : i ∈ implementations) :
    s.overlaps i = .ok false := by
  have hv := (h.mem_leaves hs).1
  have hunmatched := (h.mem_leaves hs).2
  rw [Signature.overlaps_eq_ok (h.arity_eq harity hv hi), (hunmatched i hi).2]

/-- When nothing is pending, the leaves accept exactly the uncovered tuples of
the interface. -/
theorem Reached.exists_leaf_accepts_iff (h : Reached implementations interface p)
    (hempty : p.frontier.isEmpty = true) (tuple : List Tag) :
    (∃ leaf ∈ p.leaves, leaf.Accepts tuple) ↔
      interface.Accepts tuple ∧ Uncovered implementations tuple := by
  constructor
  · intro hleaf
    obtain ⟨leaf, hmem, haccepts⟩ := hleaf
    exact h.uncovered_of_leaf harity hmem haccepts
  · intro htuple
    obtain ⟨t, ht, haccepts⟩ :=
      h.exists_leaf_or_pending harity htuple.2 h.interface_mem_visited htuple.1
    have hnone : t ∉ p.frontier := by
      rw [Ascending.isEmpty_iff.1 hempty]
      exact Ascending.not_mem_empty t
    exact ⟨t, ht.resolve_right hnone, haccepts⟩

end Leaves

namespace Solver

/-- Without a budget an analysis gives inhabited leaves within the interface
that overlap no implementation and accept exactly the uncovered tuples. -/
theorem exists_leaves {solver : Solver} {interface : Signature} (hbudget : solver.budget = none)
    (harity : ∀ i ∈ solver.implementations, i.arity = interface.arity) :
    ∃ leaves, (solver.solve interface).result = .ok leaves ∧
      (∀ tuple, (∃ leaf ∈ leaves, leaf.Accepts tuple) ↔
        interface.Accepts tuple ∧ Uncovered solver.implementations tuple) ∧
      ∀ leaf ∈ leaves, leaf.isInhabited = true ∧ leaf.Within interface ∧
        ∀ i ∈ solver.implementations, leaf.overlaps i = .ok false := by
  by_cases hinhabited : interface.isInhabited = true
  · obtain ⟨q, hq, hends⟩ := exists_endsAt_solve harity hinhabited
    cases hends with
    | finished hempty hresult _ =>
      refine ⟨q.leaves, hresult, hq.exists_leaf_accepts_iff harity hempty, fun leaf hleaf => ?_⟩
      have hv := (hq.mem_leaves hleaf).1
      exact ⟨hq.isInhabited harity hinhabited hv, hq.within harity hv,
        fun i hi => hq.overlaps_leaf harity hleaf hi⟩
    | abandoned budget hsome _ _ _ _ =>
      rw [hbudget] at hsome
      cases hsome
  · have hempty : interface.isInhabited = false := Bool.eq_false_iff.2 hinhabited
    refine ⟨∅, by rw [solve_of_not_isInhabited harity hempty], fun tuple => ?_, fun leaf hleaf =>
      absurd hleaf (Ascending.not_mem_empty leaf)⟩
    constructor
    · intro hleaf
      obtain ⟨leaf, hmem, _⟩ := hleaf
      exact absurd hmem (Ascending.not_mem_empty leaf)
    · intro htuple
      exact absurd (Signature.isInhabited_iff.2 ⟨tuple, htuple.1⟩) hinhabited

/-- Without a budget an analysis is exact: it gives leaves that accept the
tuples of the interface which no implementation accepts, and no others. Every
leaf is inhabited, lies within the interface and overlaps no implementation;
there is no leaf exactly when the implementations cover the interface. -/
theorem solve_exact {solver : Solver} {interface : Signature} (hbudget : solver.budget = none)
    (harity : ∀ i ∈ solver.implementations, i.arity = interface.arity) :
    ∃ leaves, (solver.solve interface).result = .ok leaves ∧
      (∀ tuple, (∃ leaf ∈ leaves, leaf.Accepts tuple) ↔
        interface.Accepts tuple ∧ ∀ i ∈ solver.implementations, ¬ i.Accepts tuple) ∧
      (∀ leaf ∈ leaves, leaf.isInhabited = true ∧ leaf.Within interface ∧
        ∀ i ∈ solver.implementations, leaf.overlaps i = .ok false) ∧
      (leaves = ∅ ↔ ∀ tuple, interface.Accepts tuple →
        ∃ i ∈ solver.implementations, i.Accepts tuple) := by
  obtain ⟨leaves, hresult, haccepts, hleaves⟩ := exists_leaves hbudget harity
  refine ⟨leaves, hresult, haccepts, hleaves, fun hempty tuple htuple => ?_, fun hcovered => ?_⟩
  · by_contra hnone
    have huncovered : Uncovered solver.implementations tuple :=
      fun i hi hit => hnone ⟨i, hi, hit⟩
    obtain ⟨leaf, hmem, _⟩ := (haccepts tuple).2 ⟨htuple, huncovered⟩
    rw [hempty] at hmem
    exact Ascending.not_mem_empty leaf hmem
  · refine Ascending.ext_mem fun leaf => iff_of_false (fun hmem => ?_) (Ascending.not_mem_empty leaf)
    obtain ⟨tuple, hleaf⟩ := Signature.isInhabited_iff.1 (hleaves leaf hmem).1
    have htuple := (haccepts tuple).1 ⟨leaf, hmem, hleaf⟩
    obtain ⟨i, hi, hit⟩ := hcovered tuple htuple.1
    exact htuple.2 i hi hit

/-- Two implementations that accept two opposite corners of a square. -/
def corners (budget : Option RoundBudget) : Solver :=
  { implementations := [.ofLetters [['A'], ['X']], .ofLetters [['B'], ['Y']]], budget }

/-- The interface of the square, with two tags at both positions. -/
def square : Signature := .ofLetters [['A', 'B'], ['X', 'Y']]

/-- In the square a leaf accepts A and Y, and none accepts A and X. -/
theorem solve_exact_square :
    (corners none).budget = none ∧
      (∀ i ∈ (corners none).implementations, i.arity = square.arity) ∧
      ∃ leaves, ((corners none).solve square).result = .ok leaves ∧
        (∃ leaf ∈ leaves, leaf.Accepts (Signature.letters ['A', 'Y'])) ∧
        ¬ ∃ leaf ∈ leaves, leaf.Accepts (Signature.letters ['A', 'X']) := by
  have hbudget : (corners none).budget = none := rfl
  have harity : ∀ i ∈ (corners none).implementations, i.arity = square.arity := by decide
  obtain ⟨leaves, hresult, haccepts, _, _⟩ := solve_exact hbudget harity
  refine ⟨hbudget, harity, leaves, hresult, (haccepts _).2 ?_, fun hleaf => ?_⟩
  · decide +kernel
  · exact absurd ((haccepts _).1 hleaf) (by decide +kernel)

section Abandonment

variable {solver : Solver} {interface : Signature} {q : Progress}
  (harity : ∀ i ∈ solver.implementations, i.arity = interface.arity)
  (hq : Reached solver.implementations interface q)
include harity hq

/-- The leaves and the pending signatures accept every uncovered tuple. -/
theorem exists_carried_accepts {tuple : List Tag} (htuple : interface.Accepts tuple)
    (huncovered : Uncovered solver.implementations tuple) :
    ∃ s, (s ∈ q.leaves ∨ s ∈ q.frontier) ∧ s.Accepts tuple :=
  hq.exists_leaf_or_pending harity huncovered hq.interface_mem_visited htuple

/-- Checking a pending signature without a budget gives exactly its uncovered
tuples. -/
theorem exists_rest {s : Signature} (hs : s ∈ q.frontier) :
    ∃ rest, ({ solver with budget := none }.solve s).result = .ok rest ∧
      ∀ tuple, (∃ leaf ∈ rest, leaf.Accepts tuple) ↔
        s.Accepts tuple ∧ Uncovered solver.implementations tuple := by
  have hbudget : ({ solver with budget := none } : Solver).budget = none := rfl
  have hsame : ∀ i ∈ solver.implementations, i.arity = s.arity :=
    fun i hi => (hq.arity_eq harity (hq.mem_visited hs) hi).symm
  obtain ⟨rest, hrest, haccepts, _⟩ := exists_leaves hbudget hsame
  exact ⟨rest, hrest, haccepts⟩

/-- The leaves and the results of checking the pending signatures accept
exactly the uncovered tuples of the interface. -/
theorem leaf_or_rest_accepts_iff (tuple : List Tag) :
    ((∃ leaf ∈ q.leaves, leaf.Accepts tuple) ∨
        ∃ s ∈ q.frontier, ∃ rest, ({ solver with budget := none }.solve s).result = .ok rest ∧
          ∃ leaf ∈ rest, leaf.Accepts tuple) ↔
      interface.Accepts tuple ∧ Uncovered solver.implementations tuple := by
  constructor
  · intro hfound
    rcases hfound with hleaf | hlater
    · obtain ⟨leaf, hmem, haccepts⟩ := hleaf
      exact hq.uncovered_of_leaf harity hmem haccepts
    · obtain ⟨s, hs, rest, hrest, hleaf⟩ := hlater
      obtain ⟨rest', hrest', haccepts⟩ := exists_rest harity hq hs
      rw [hrest] at hrest'
      cases hrest'
      have hst := (haccepts tuple).1 hleaf
      exact ⟨(hq.within harity (hq.mem_visited hs)).accepts hst.1, hst.2⟩
  · intro htuple
    obtain ⟨s, hs, hst⟩ := exists_carried_accepts harity hq htuple.1 htuple.2
    rcases hs with hleaf | hfrontier
    · exact .inl ⟨s, hleaf, hst⟩
    · obtain ⟨rest, hrest, haccepts⟩ := exists_rest harity hq hfrontier
      exact .inr ⟨s, hfrontier, rest, hrest, (haccepts tuple).2 ⟨hst, htuple.2⟩⟩

end Abandonment

/-- A budget that stops an analysis leaves a consistent state behind. The
carried count is the budget and some signature is pending. All carried
signatures are inhabited and within the interface, the leaves overlap no
implementation, and every uncovered tuple lies in a leaf or in a pending
signature. So the leaves, with the results of checking the pending signatures
without a budget, which always ends, accept exactly the uncovered tuples. -/
theorem abandoned_consistent {solver : Solver} {interface : Signature} {budget : RoundBudget}
    (hbudget : solver.budget = some budget)
    (harity : ∀ i ∈ solver.implementations, i.arity = interface.arity)
    {about : Signature} {rounds : Nat} {leaves frontier : SignatureSet}
    (habandoned : (solver.solve interface).result =
      .error (.budgetExceeded about rounds leaves frontier)) :
    about = interface ∧ rounds = budget.limit ∧ frontier ≠ ∅ ∧
      (∀ s, s ∈ leaves ∨ s ∈ frontier → s.isInhabited = true ∧ s.Within interface) ∧
      (∀ leaf ∈ leaves, ∀ i ∈ solver.implementations, leaf.overlaps i = .ok false) ∧
      (∀ tuple, interface.Accepts tuple → (∀ i ∈ solver.implementations, ¬ i.Accepts tuple) →
        ∃ s, (s ∈ leaves ∨ s ∈ frontier) ∧ s.Accepts tuple) ∧
      (∀ s ∈ frontier, ∃ rest, ({ solver with budget := none }.solve s).result = .ok rest) ∧
      ∀ tuple, ((∃ leaf ∈ leaves, leaf.Accepts tuple) ∨
          ∃ s ∈ frontier, ∃ rest, ({ solver with budget := none }.solve s).result = .ok rest ∧
            ∃ leaf ∈ rest, leaf.Accepts tuple) ↔
        interface.Accepts tuple ∧ ∀ i ∈ solver.implementations, ¬ i.Accepts tuple := by
  by_cases hinhabited : interface.isInhabited = true
  · obtain ⟨q, hq, hends⟩ := exists_endsAt_solve harity hinhabited
    cases hends with
    | finished _ hresult _ =>
      rw [hresult] at habandoned
      cases habandoned
    | abandoned limit hsome hlimit hpending hresult _ =>
      rw [hresult] at habandoned
      rw [hbudget] at hsome
      cases habandoned
      cases hsome
      have hvisited : ∀ s, s ∈ q.leaves ∨ s ∈ q.frontier → s ∈ q.visited := by
        intro s hs
        rcases hs with hleaf | hfrontier
        · exact (hq.mem_leaves hleaf).1
        · exact hq.mem_visited hfrontier
      have hne : q.frontier ≠ ∅ := by
        intro hempty
        rw [Ascending.isEmpty_iff.2 hempty] at hpending
        cases hpending
      exact ⟨rfl, hlimit, hne,
        fun s hs => ⟨hq.isInhabited harity hinhabited (hvisited s hs),
          hq.within harity (hvisited s hs)⟩,
        fun leaf hleaf i hi => hq.overlaps_leaf harity hleaf hi,
        fun tuple htuple huncovered => exists_carried_accepts harity hq htuple huncovered,
        fun s hs => (exists_rest harity hq hs).imp fun rest hrest => hrest.1,
        leaf_or_rest_accepts_iff harity hq⟩
  · rw [solve_of_not_isInhabited harity (Bool.eq_false_iff.2 hinhabited)] at habandoned
    cases habandoned

/-- The corners of the square, one signature for each. -/
def cornersOfSquare : SignatureSet :=
  .ofList [.ofLetters [['A'], ['X']], .ofLetters [['A'], ['Y']], .ofLetters [['B'], ['X']],
    .ofLetters [['B'], ['Y']]]

/-- After one round all four corners of the square are pending, although two
of them are implemented, and together they accept the uncovered tuples. -/
theorem abandoned_consistent_square :
    (∀ i ∈ (corners (some ⟨1, by decide⟩)).implementations, i.arity = square.arity) ∧
      ((corners (some ⟨1, by decide⟩)).solve square).result =
        .error (.budgetExceeded square 1 ∅ cornersOfSquare) ∧
      ∃ s, (s ∈ (∅ : SignatureSet) ∨ s ∈ cornersOfSquare) ∧
        s.Accepts (Signature.letters ['A', 'Y']) := by
  have hbudget : (corners (some ⟨1, by decide⟩)).budget = some ⟨1, by decide⟩ := rfl
  have harity : ∀ i ∈ (corners (some ⟨1, by decide⟩)).implementations,
      i.arity = square.arity := by decide
  have habandoned : ((corners (some ⟨1, by decide⟩)).solve square).result =
      .error (.budgetExceeded square 1 ∅ cornersOfSquare) := by decide +kernel
  obtain ⟨_, _, _, _, _, hcovers, _, _⟩ := abandoned_consistent hbudget harity habandoned
  exact ⟨harity, habandoned, hcovers _ (by decide +kernel) (by decide +kernel)⟩

end Solver

end DispatchCoverage

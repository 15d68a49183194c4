import DispatchCoverage.Proofs.Positions
import DispatchCoverage.Proofs.StepVerdict

/-!
# How a signature splits under an implementation

An overlapping implementation splits a signature into parts, one for every
subset of the deficient positions. A tuple of the signature lies in the part
for the positions at which the implementation refuses it, and in no other. So
the parts are disjoint and make up the signature; the part for no position is
the intersection, and the others are the residuals. As every part is inhabited,
a step never meets an uninhabited residual, whatever the signature, the
implementations and the visited signatures are.
-/

namespace DispatchCoverage

namespace Signature

/-- Signatures, one for every choice of positions in a list, into which the
region of a signature splits. -/
structure IsPartition (s : Signature) (choices : List (List Nat)) (part : List Nat → Signature) :
    Prop where
  /-- No part is void. -/
  isInhabited : ∀ v ∈ choices, (part v).isInhabited = true
  /-- No tuple lies in two parts. -/
  disjoint : ∀ v ∈ choices, ∀ w ∈ choices, v ≠ w →
    ∀ tuple, (part v).Accepts tuple → ¬ (part w).Accepts tuple
  /-- The tuples of the signature are those of its parts. -/
  accepts_iff : ∀ tuple, s.Accepts tuple ↔ ∃ v ∈ choices, (part v).Accepts tuple

/-- The deficient positions stand in ascending order. -/
theorem pairwise_deficientPositions (s i : Signature) :
    (s.deficientPositions i).Pairwise (fun j k => compare j k = .lt) :=
  (List.pairwise_lt_range.imp fun h => Nat.compare_eq_lt.2 h).filter _

/-- Choices of deficient positions are equal when they hold the same
positions. -/
theorem eq_of_sublist_deficientPositions {s i : Signature} {v w : List Nat}
    (hv : v.Sublist (s.deficientPositions i)) (hw : w.Sublist (s.deficientPositions i))
    (h : ∀ k, k ∈ v ↔ k ∈ w) : v = w :=
  Ascending.eq_of_pairwise_of_mem ((pairwise_deficientPositions s i).sublist hv)
    ((pairwise_deficientPositions s i).sublist hw) h

/-- A position is deficient exactly when the positional difference is not empty
there. -/
theorem mem_deficientPositions_iff_excess {s i : Signature} {k : Nat} :
    k ∈ s.deficientPositions i ↔
      ∃ p, (s.excess i).parameters[k]? = some p ∧ p.isEmpty = false := by
  rw [deficientPositions, List.mem_filter, List.mem_range, Option.any_eq_true]
  simp only [Bool.not_eq_true']
  constructor
  · intro h
    exact h.2
  · intro h
    obtain ⟨p, hp, hne⟩ := h
    obtain ⟨hk, _⟩ := List.getElem?_eq_some_iff.1 hp
    exact ⟨hk, p, hp, hne⟩

/-- The part for some deficient positions accepts the tuples of the signature
that the implementation refuses exactly there. -/
theorem accepts_deviation_iff_refusedPositions {s i : Signature} (h : s.arity = i.arity)
    {v : List Nat} (hv : v.Sublist (s.deficientPositions i)) {tuple : List Tag} :
    (s.deviation i v).Accepts tuple ↔ s.Accepts tuple ∧ v = i.refusedPositions tuple := by
  constructor
  · intro hd
    obtain ⟨hs, hmem⟩ := (accepts_deviation h).1 hd
    refine ⟨hs, eq_of_sublist_deficientPositions hv (refusedPositions_sublist h hs) fun k => ?_⟩
    rw [mem_refusedPositions]
    constructor
    · intro hk
      obtain ⟨p, q, hp, hq, _⟩ := mem_deficientPositions.1 (hv.subset hk)
      obtain ⟨t, ht, _⟩ := hs.exists_getElem? hp
      have hrefused : t ∉ q := fun htq => (hmem k q t hq ht).1 htq hk
      exact ⟨q, t, hq, ht, hrefused⟩
    · intro hk
      obtain ⟨q, t, hq, ht, hrefused⟩ := hk
      by_contra hkv
      exact hrefused ((hmem k q t hq ht).2 hkv)
  · intro hd
    obtain ⟨hs, rfl⟩ := hd
    exact accepts_deviation_refusedPositions h hs

/-- The parts for the subsets of the deficient positions are a partition. -/
theorem isPartition_deviation {s i : Signature} (h : s.arity = i.arity)
    (hm : s.meets i = true) :
    s.IsPartition (subsets (s.deficientPositions i)) (s.deviation i) where
  isInhabited v hv := isInhabited_deviation h hm fun _ hk => (mem_subsets.1 hv).subset hk
  disjoint v hv w hw hne tuple hdv hdw := by
    have hvr := ((accepts_deviation_iff_refusedPositions h (mem_subsets.1 hv)).1 hdv).2
    have hwr := ((accepts_deviation_iff_refusedPositions h (mem_subsets.1 hw)).1 hdw).2
    exact hne (hvr.trans hwr.symm)
  accepts_iff tuple := by
    constructor
    · intro hs
      have hsublist := refusedPositions_sublist h hs
      exact ⟨i.refusedPositions tuple, mem_subsets.2 hsublist,
        accepts_deviation_refusedPositions h hs⟩
    · intro hpart
      obtain ⟨v, _, hd⟩ := hpart
      exact ((accepts_deviation h).1 hd).1

end Signature

/-- Holding a signature against implementations of whatever arity finds no
uninhabited residual. -/
theorem decomposeFrom_ne_inconsistent (implementations : List Signature)
    (visited collected : SignatureSet) (s i t : Signature) :
    decomposeFrom visited s collected implementations ≠ .ok (.inconsistent i t) := by
  induction implementations generalizing collected with
  | nil => simp [decomposeFrom]
  | cons j rest ih =>
    by_cases harity : s.arity = j.arity
    · rw [decomposeFrom_cons harity]
      by_cases hs : s = j
      · rw [if_pos hs]
        simp
      · rw [if_neg hs]
        by_cases hm : s.meets j = true
        · rw [if_pos hm]
          by_cases hvisited : (freshResiduals visited s j).isEmpty = true
          · rw [if_pos hvisited]
            simp
          · rw [if_neg hvisited]
            exact ih _
        · rw [if_neg hm]
          exact ih collected
    · have hs : s ≠ j := fun hs => harity (congrArg Signature.arity hs)
      rw [decomposeFrom, if_neg hs, if_pos harity]
      simp

namespace Solver

/-- No step, strict or not, takes the branch for an uninhabited residual. -/
theorem step_ne_uninhabited (solver : Solver) (visited : SignatureSet) (s : Signature) :
    (∀ source i t, solver.step visited s ≠ .error (.uninhabitedResidual source i t)) ∧
      ∀ i t, solver.step visited s ≠ .ok (.inconsistent i t) := by
  have hnever := decomposeFrom_ne_inconsistent solver.implementations visited ∅ s
  rw [step]
  cases hd : decompose solver.implementations visited s with
  | error mismatch => simp
  | ok verdict =>
    cases verdict with
    | covered => simp
    | pending successors => simp
    | inconsistent i t => exact absurd hd (hnever i t)

end Solver

namespace Signature

/-- An implementation that overlaps a signature splits it. One part is made for
every subset of the deficient positions, by substituting the positional
difference there into the intersection; the parts are inhabited, disjoint and
together the signature. The part for no position is the intersection, with the
common tuples; any other part lies within the signature, is not the whole of it
and has no tuple of the implementation. So no step, on whatever solver, comes
to the branch for an uninhabited residual. -/
theorem isPartition_of_overlaps {s i : Signature} (h : s.overlaps i = .ok true) :
    ∃ matched deficient,
      s.intersection i = .ok matched ∧ s.positionalDifference i = .ok deficient ∧
      (∀ k, k ∈ s.deficientPositions i ↔
        ∃ p, deficient.parameters[k]? = some p ∧ p.isEmpty = false) ∧
      (∀ v ∈ subsets (s.deficientPositions i),
        matched.substitute (v.map Nat.cast) deficient = .ok (s.deviation i v)) ∧
      s.IsPartition (subsets (s.deficientPositions i)) (s.deviation i) ∧
      s.deviation i [] = matched ∧
      (∀ tuple, matched.Accepts tuple ↔ s.Accepts tuple ∧ i.Accepts tuple) ∧
      (∀ v ∈ subsets (s.deficientPositions i), v ≠ [] →
        (∀ tuple, i.Accepts tuple → ¬ (s.deviation i v).Accepts tuple) ∧
          (s.deviation i v).Within s ∧ s.deviation i v ≠ s) ∧
      ∀ (solver : Solver) (visited : SignatureSet) (source : Signature),
        (∀ u j t, solver.step visited source ≠ .error (.uninhabitedResidual u j t)) ∧
          ∀ j t, solver.step visited source ≠ .ok (.inconsistent j t) := by
  obtain ⟨harity, hm⟩ := overlaps_eq_ok_iff.1 h
  have hintersection : s.intersection i = .ok (s.meet i) := by
    rw [intersection, checkArity, if_pos harity]
    rfl
  have hdifference : s.positionalDifference i = .ok (s.excess i) := by
    rw [positionalDifference, checkArity, if_pos harity]
    rfl
  have hmatched : (s.meet i).arity = s.arity := arity_deviation harity []
  have hsame : (s.meet i).arity = (s.excess i).arity := by
    simp [arity, meet, excess]
  refine ⟨s.meet i, s.excess i, hintersection, hdifference,
    fun k => mem_deficientPositions_iff_excess, fun v hv => ?_, isPartition_deviation harity hm,
    rfl, fun tuple => accepts_meet harity, fun v hv hne => ?_, Solver.step_ne_uninhabited⟩
  · refine substitute_natCast hsame fun k hk => ?_
    rw [hmatched]
    exact lt_arity_of_mem_deficientPositions ((mem_subsets.1 hv).subset hk)
  · have hresidual : s.deviation i v ∈ s.residuals i :=
      mem_residuals.2 ⟨v, hne, mem_subsets.1 hv, rfl⟩
    have hapart : (s.deviation i v).meets i = false := meets_residual harity hresidual
    have hwithin : (s.deviation i v).Within s := residual_within harity hresidual
    refine ⟨fun tuple hi hd => ?_, hwithin, residual_ne hm hresidual⟩
    have hmeets : (s.deviation i v).meets i = true :=
      (meets_iff_exists_accepts (hwithin.1.trans harity)).2 ⟨tuple, hd, hi⟩
    rw [hapart] at hmeets
    cases hmeets

/-- Of a square of two tags by two, an implementation of one corner splits off
the three others, one for every way to deviate from it. The tuple that deviates
at the first position only is in the part for this position and in no other. -/
theorem isPartition_of_overlaps_corner :
    let square := ofLetters [['A', 'B'], ['X', 'Y']]
    let corner := ofLetters [['A'], ['X']]
    square.overlaps corner = .ok true ∧
      subsets (square.deficientPositions corner) = [[], [0], [1], [0, 1]] ∧
      (∀ v ∈ subsets (square.deficientPositions corner),
        (square.deviation corner v).isInhabited = true) ∧
      (square.deviation corner [0]).Accepts (letters ['B', 'X']) ∧
      ¬ (square.deviation corner [0, 1]).Accepts (letters ['B', 'X']) := by
  intro square corner
  have hoverlaps : square.overlaps corner = .ok true := by decide +kernel
  have hsubsets : subsets (square.deficientPositions corner) = [[], [0], [1], [0, 1]] := by
    decide +kernel
  have haccepts : (square.deviation corner [0]).Accepts (letters ['B', 'X']) := by
    decide +kernel
  obtain ⟨_, _, _, _, _, _, hpartition, _⟩ := isPartition_of_overlaps hoverlaps
  refine ⟨hoverlaps, hsubsets, hpartition.isInhabited, haccepts, ?_⟩
  rw [hsubsets] at hpartition
  exact hpartition.disjoint [0] (by decide) [0, 1] (by decide) (by decide) _ haccepts

end Signature

end DispatchCoverage

import DispatchCoverage.Proofs.Exactness

/-!
# How finely an analysis splits

An analysis splits a position only where the implementations differ. Two tags
of the interface that every overlapping implementation accepts or refuses
together stay together in every signature that the analysis visits, since a
residual is made of common and of lacking tags only. So neither a leaf nor a
pending signature tells such tags apart, and a position at which all
overlapping implementations accept whatever the interface does is never split.
-/

namespace DispatchCoverage

namespace Signature

/-- Whether a signature has both or neither of two tags at a position. -/
def Joins (s : Signature) (k : Nat) (x y : Tag) : Prop :=
  ∀ p, s.parameters[k]? = some p → (x ∈ p ↔ y ∈ p)

/-- A residual joins two tags that its signature and the implementation
join. -/
theorem Joins.residual {s i t : Signature} {k : Nat} {x y : Tag} (hs : s.Joins k x y)
    (hi : i.Joins k x y) (harity : s.arity = i.arity) (ht : t ∈ s.residuals i) :
    t.Joins k x y := by
  obtain ⟨v, _, _, rfl⟩ := mem_residuals.1 ht
  intro r hr
  obtain ⟨p, q, hp, hq, rfl⟩ := exists_of_getElem?_deviation harity hr
  have hsame : x ∈ p ↔ y ∈ p := hs p hp
  have hsame' : x ∈ q ↔ y ∈ q := hi q hq
  by_cases hk : k ∈ v
  · rw [if_pos hk, Ascending.mem_diff, Ascending.mem_diff]
    exact and_congr hsame (not_congr hsame')
  · rw [if_neg hk, Ascending.mem_inter, Ascending.mem_inter]
    exact and_congr hsame hsame'

end Signature

/-- Whether an outcome reports a signature: as a leaf, or as one that was still
to be checked when the budget was used up. -/
def Outcome.Reports (outcome : Outcome) (s : Signature) : Prop :=
  match outcome.result with
  | .ok leaves => s ∈ leaves
  | .error (.budgetExceeded _ _ leaves frontier) => s ∈ leaves ∨ s ∈ frontier
  | .error _ => False

section Reached

variable {implementations : List Signature} {interface : Signature} {p : Progress}
  (harity : ∀ i ∈ implementations, i.arity = interface.arity)
  (h : Reached implementations interface p) {s : Signature} (hs : s ∈ p.visited)
include harity h hs

/-- Every visited signature joins the tags that the interface and all
implementations overlapping it join. -/
theorem Reached.joins {k : Nat} {x y : Tag} (hinterface : interface.Joins k x y)
    (hsame : ∀ i ∈ implementations, interface.meets i = true → i.Joins k x y) :
    s.Joins k x y := by
  have hboth : s.Within interface ∧ s.Joins k x y := by
    refine h.of_mem_visited (fun s => s.Within interface ∧ s.Joins k x y)
      ⟨Signature.Within.refl interface, hinterface⟩ (fun u t hu hr => ?_) hs
    obtain ⟨i, hi, hm, ht⟩ := hr
    have hui : u.arity = i.arity := hu.1.1.trans (harity i hi).symm
    have hmeets : interface.meets i = true := hu.1.meets hui hm
    exact ⟨(Signature.residual_within hui ht).trans hu.1,
      hu.2.residual (hsame i hi hmeets) hui ht⟩
  exact hboth.2

/-- A position at which the overlapping implementations accept all tags of an
inhabited interface is the same in every visited signature. -/
theorem Reached.getElem?_eq (hinhabited : interface.isInhabited = true) {k : Nat} {p : TypeSet}
    (hp : interface.parameters[k]? = some p)
    (hall : ∀ i ∈ implementations, interface.meets i = true →
      ∀ q, i.parameters[k]? = some q → ∀ a ∈ p, a ∈ q) :
    s.parameters[k]? = some p := by
  have hwithin : s.Within interface := h.within harity hs
  have hsource : s.isInhabited = true := h.isInhabited harity hinhabited hs
  obtain ⟨r, hr⟩ := Signature.exists_getElem?_of_arity_eq hwithin.1.symm hp
  have hsub : ∀ a ∈ r, a ∈ p := (Signature.within_iff_getElem?.1 hwithin).2 k r p hr hp
  obtain ⟨t, ht, _⟩ := Signature.exists_mem_of_meets (Signature.meets_self hsource) hr hr
  have hjoins : ∀ a ∈ p, s.Joins k t a := by
    intro a ha
    refine h.joins harity hs (fun p' hp' => ?_) (fun i hi hm q hq => ?_)
    · rw [hp] at hp'
      cases hp'
      exact iff_of_true (hsub t ht) ha
    · exact iff_of_true (hall i hi hm q hq t (hsub t ht)) (hall i hi hm q hq a ha)
  have heq : r = p :=
    Ascending.ext_mem fun a => ⟨hsub a, fun ha => (hjoins a ha r hr).1 ht⟩
  rw [hr, heq]

end Reached

namespace Solver

/-- Only an inhabited interface has anything to report, and what is reported
was visited. -/
theorem exists_mem_visited_of_reports {solver : Solver} {interface s : Signature}
    (harity : ∀ i ∈ solver.implementations, i.arity = interface.arity)
    (hs : (solver.solve interface).Reports s) :
    interface.isInhabited = true ∧
      ∃ q, Reached solver.implementations interface q ∧ s ∈ q.visited := by
  by_cases hinhabited : interface.isInhabited = true
  · obtain ⟨q, hq, hends⟩ := exists_endsAt_solve harity hinhabited
    refine ⟨hinhabited, q, hq, ?_⟩
    cases hends with
    | finished _ hresult _ =>
      rw [Outcome.Reports, hresult] at hs
      exact (hq.mem_leaves hs).1
    | abandoned _ _ _ _ hresult _ =>
      rw [Outcome.Reports, hresult] at hs
      rcases hs with hleaf | hfrontier
      · exact (hq.mem_leaves hleaf).1
      · exact hq.mem_visited hfrontier
  · rw [Outcome.Reports,
      solve_of_not_isInhabited harity (Bool.eq_false_iff.2 hinhabited)] at hs
    exact absurd hs (Ascending.not_mem_empty s)

/-- What an analysis reports, leaves and pending signatures alike, has both or
neither of two tags of the interface that every implementation overlapping the
interface accepts or refuses together. At a position where every overlapping
implementation accepts all tags of the interface, the report is the interface's
own set. -/
theorem solve_joins_indistinguishable {solver : Solver} {interface s : Signature}
    (harity : ∀ i ∈ solver.implementations, i.arity = interface.arity)
    (hs : (solver.solve interface).Reports s) :
    (∀ (k : Nat) p x y, interface.parameters[k]? = some p → x ∈ p → y ∈ p →
        (∀ i ∈ solver.implementations, interface.overlaps i = .ok true → i.Joins k x y) →
        ∃ q, s.parameters[k]? = some q ∧ (x ∈ q ↔ y ∈ q)) ∧
      ∀ (k : Nat) p, interface.parameters[k]? = some p →
        (∀ i ∈ solver.implementations, interface.overlaps i = .ok true →
          ∀ q, i.parameters[k]? = some q → ∀ a ∈ p, a ∈ q) →
        s.parameters[k]? = some p := by
  obtain ⟨hinhabited, q, hq, hvisited⟩ := exists_mem_visited_of_reports harity hs
  have hoverlaps : ∀ i ∈ solver.implementations, interface.meets i = true →
      interface.overlaps i = .ok true := by
    intro i hi hm
    rw [Signature.overlaps_eq_ok (harity i hi).symm, hm]
  refine ⟨fun k p x y hp hx hy hsame => ?_, fun k p hp hall => ?_⟩
  · obtain ⟨r, hr⟩ :=
      Signature.exists_getElem?_of_arity_eq (hq.within harity hvisited).1.symm hp
    have hinterface : interface.Joins k x y := by
      intro p' hp'
      rw [hp] at hp'
      cases hp'
      exact iff_of_true hx hy
    have hjoins : s.Joins k x y := hq.joins harity hvisited hinterface
      fun i hi hm => hsame i hi (hoverlaps i hi hm)
    exact ⟨r, hr, hjoins r hr⟩
  · exact hq.getElem?_eq harity hvisited hinhabited hp
      fun i hi hm => hall i hi (hoverlaps i hi hm)

/-- One round against an implementation that accepts A and B together at the
first position, and one that accepts C with everything. -/
def pairs : Solver :=
  { implementations := [.ofLetters [['A', 'B'], ['X']], .ofLetters [['C'], ['X', 'Y', 'Z']]]
    budget := some ⟨1, by decide⟩ }

/-- The interface with three tags at both positions. -/
def grid : Signature := .ofLetters [['A', 'B', 'C'], ['X', 'Y', 'Z']]

/-- Of the grid, the part with A or B and Y or Z is pending after one round. It
has both Y and Z, which no implementation tells apart. -/
theorem solve_joins_indistinguishable_grid :
    (∀ i ∈ pairs.implementations, i.arity = grid.arity) ∧
      (pairs.solve grid).Reports (.ofLetters [['A', 'B'], ['Y', 'Z']]) ∧
      ∀ x ∈ Signature.letters ['Y', 'Z'], ∀ y ∈ Signature.letters ['Y', 'Z'],
        ∃ q, (Signature.ofLetters [['A', 'B'], ['Y', 'Z']]).parameters[1]? = some q ∧
          (x ∈ q ↔ y ∈ q) := by
  have harity : ∀ i ∈ pairs.implementations, i.arity = grid.arity := by decide
  have hreports : (pairs.solve grid).Reports (.ofLetters [['A', 'B'], ['Y', 'Z']]) := by
    have hresult : (pairs.solve grid).result = .error (.budgetExceeded grid 1 ∅
        (.ofList [.ofLetters [['A', 'B'], ['X', 'Y', 'Z']], .ofLetters [['A', 'B'], ['Y', 'Z']],
          .ofLetters [['C'], ['X']], .ofLetters [['C'], ['Y', 'Z']]])) := by decide +kernel
    rw [Outcome.Reports, hresult]
    decide +kernel
  have hsecond : ∀ q ∈ pairs.implementations.flatMap (·.parameters[1]?.toList),
      (∀ z ∈ Signature.letters ['Y', 'Z'], z ∈ q) ∨ ∀ z ∈ Signature.letters ['Y', 'Z'], z ∉ q := by
    decide +kernel
  have hmem : ∀ z ∈ Signature.letters ['Y', 'Z'],
      z ∈ Ascending.ofList (Signature.letters ['X', 'Y', 'Z']) := by
    decide +kernel
  refine ⟨harity, hreports, fun x hx y hy => ?_⟩
  refine (solve_joins_indistinguishable harity hreports).1 1 _ x y rfl (hmem x hx) (hmem y hy)
    fun i hi _ q hq => ?_
  rcases hsecond q (List.mem_flatMap.2 ⟨i, hi, Option.mem_toList.2 hq⟩) with hboth | hneither
  · exact iff_of_true (hboth x hx) (hboth y hy)
  · exact iff_of_false (hneither x hx) (hneither y hy)

end Solver

end DispatchCoverage

import DispatchCoverage.Proofs.Exactness

/-!
# The relevant parts of the implementations

Of an implementation only its part within the interface matters, and only if
there is one. Every signature that an analysis visits lies within the
interface, so its residuals under an implementation are those under the part.
Two analyses whose implementations have the same set of parts therefore go
through the same states, round by round, although their steps may stop early
at different implementations. In particular the order of the implementations,
repetitions, and whatever they accept outside of the interface do not matter.
-/

namespace DispatchCoverage

/-- The parts of an interface that overlapping implementations accept. -/
def relevantParts (interface : Signature) (implementations : List Signature) : SignatureSet :=
  Ascending.ofList ((implementations.filter (fun i => i.meets interface)).map
    (fun i => i.meet interface))

/-- A relevant part is the intersection of an overlapping implementation with
the interface. -/
theorem mem_relevantParts {interface t : Signature} {implementations : List Signature} :
    t ∈ relevantParts interface implementations ↔
      ∃ i ∈ implementations, i.meets interface = true ∧ i.meet interface = t := by
  rw [relevantParts, Ascending.mem_ofList, List.mem_map]
  constructor
  · intro h
    obtain ⟨i, hi, heq⟩ := h
    have hi := List.mem_filter.1 hi
    exact ⟨i, hi.1, hi.2, heq⟩
  · intro h
    obtain ⟨i, hi, hm, heq⟩ := h
    exact ⟨i, List.mem_filter.2 ⟨hi, hm⟩, heq⟩

/-- Implementations that overlap the interface determine the relevant parts,
whatever their order and number. -/
theorem relevantParts_congr {interface : Signature} {I J : List Signature}
    (h : ∀ i, i.meets interface = true → (i ∈ I ↔ i ∈ J)) :
    relevantParts interface I = relevantParts interface J := by
  refine Ascending.ext_mem fun t => ?_
  rw [mem_relevantParts, mem_relevantParts]
  constructor
  · intro ht
    obtain ⟨i, hi, hm, heq⟩ := ht
    exact ⟨i, (h i hm).1 hi, hm, heq⟩
  · intro ht
    obtain ⟨i, hi, hm, heq⟩ := ht
    exact ⟨i, (h i hm).2 hi, hm, heq⟩

/-- Changing implementations outside of the interface keeps the relevant
parts. -/
theorem relevantParts_map {interface : Signature} {I : List Signature} {f : Signature → Signature}
    (h : ∀ i ∈ I, (f i).meet interface = i.meet interface) :
    relevantParts interface (I.map f) = relevantParts interface I := by
  have hmeets : ∀ i ∈ I, (f i).meets interface = i.meets interface := by
    intro i hi
    rw [Signature.meets_eq_isInhabited_meet, Signature.meets_eq_isInhabited_meet, h i hi]
  refine Ascending.ext_mem fun t => ?_
  rw [mem_relevantParts, mem_relevantParts]
  constructor
  · intro ht
    obtain ⟨j, hj, hm, heq⟩ := ht
    obtain ⟨i, hi, rfl⟩ := List.mem_map.1 hj
    exact ⟨i, hi, hmeets i hi ▸ hm, h i hi ▸ heq⟩
  · intro ht
    obtain ⟨i, hi, hm, heq⟩ := ht
    exact ⟨f i, List.mem_map.2 ⟨i, hi, rfl⟩, (hmeets i hi).trans hm, (h i hi).trans heq⟩

namespace Signature

/-- Residuals are made of the common and of the lacking tags only. -/
theorem residuals_congr {s i j : Signature} (hmeet : s.meet i = s.meet j)
    (hexcess : s.excess i = s.excess j) : s.residuals i = s.residuals j := by
  rw [residuals, residuals, deficientPositions, deficientPositions, hmeet, hexcess]

section Clipping

variable {s i interface : Signature} (hs : s.Within interface) (hi : i.arity = interface.arity)
include hs hi

/-- At every position of a signature within the interface stand a set of the
implementation and one of the interface that contains the set of the
signature. -/
theorem Within.exists_getElem? {k : Nat} {p : TypeSet} (hp : s.parameters[k]? = some p) :
    ∃ q r, i.parameters[k]? = some q ∧ interface.parameters[k]? = some r ∧ ∀ a ∈ p, a ∈ r := by
  obtain ⟨r, hr⟩ := exists_getElem?_of_arity_eq hs.1 hp
  obtain ⟨q, hq⟩ := exists_getElem?_of_arity_eq hi.symm hr
  exact ⟨q, r, hq, hr, (within_iff_getElem?.1 hs).2 k p r hp hr⟩

/-- Within the interface an implementation and its part have the same common
tags. -/
theorem meet_clip : s.meet (i.meet interface) = s.meet i := by
  refine parameters_injective (List.ext_getElem? fun k => ?_)
  rw [getElem?_meet, getElem?_meet, getElem?_meet]
  cases hp : s.parameters[k]? with
  | none => rfl
  | some p =>
    obtain ⟨q, r, hq, hr, hpr⟩ := hs.exists_getElem? hi hp
    rw [hq, hr]
    refine congrArg some (Ascending.ext_mem fun a => ?_)
    rw [Ascending.mem_inter, Ascending.mem_inter, Ascending.mem_inter]
    constructor
    · intro ha
      exact ⟨ha.1, ha.2.1⟩
    · intro ha
      exact ⟨ha.1, ha.2, hpr a ha.1⟩

/-- Within the interface an implementation and its part lack the same tags. -/
theorem excess_clip : s.excess (i.meet interface) = s.excess i := by
  refine parameters_injective (List.ext_getElem? fun k => ?_)
  rw [getElem?_excess, getElem?_excess, getElem?_meet]
  cases hp : s.parameters[k]? with
  | none => rfl
  | some p =>
    obtain ⟨q, r, hq, hr, hpr⟩ := hs.exists_getElem? hi hp
    rw [hq, hr]
    refine congrArg some (Ascending.ext_mem fun a => ?_)
    rw [Ascending.mem_diff, Ascending.mem_diff, Ascending.mem_inter]
    constructor
    · intro ha
      exact ⟨ha.1, fun hq => ha.2 ⟨hq, hpr a ha.1⟩⟩
    · intro ha
      exact ⟨ha.1, fun hqr => ha.2 hqr.1⟩

/-- Within the interface an implementation and its part overlap the same
signatures. -/
theorem meets_clip : s.meets (i.meet interface) = s.meets i := by
  rw [meets_eq_isInhabited_meet, meets_eq_isInhabited_meet, meet_clip hs hi]

/-- Within the interface an implementation and its part leave the same
residuals. -/
theorem residuals_clip : s.residuals (i.meet interface) = s.residuals i :=
  residuals_congr (meet_clip hs hi) (excess_clip hs hi)

end Clipping

end Signature

section Counterparts

variable {interface : Signature} {I J : List Signature}
  (hI : ∀ i ∈ I, i.arity = interface.arity) (hJ : ∀ j ∈ J, j.arity = interface.arity)
  (hparts : relevantParts interface I = relevantParts interface J)
include hI hJ hparts

/-- An implementation that overlaps a signature within the interface has a
counterpart among implementations with the same relevant parts. -/
theorem exists_counterpart {s i : Signature} (hs : s.Within interface) (hi : i ∈ I)
    (hm : s.meets i = true) :
    ∃ j ∈ J, s.meets j = true ∧ s.residuals j = s.residuals i := by
  have hoverlaps : i.meets interface = true := by
    rw [Signature.meets_comm (hI i hi)]
    exact hs.meets (hs.1.trans (hI i hi).symm) hm
  have hpart : i.meet interface ∈ relevantParts interface J := by
    rw [← hparts]
    exact mem_relevantParts.2 ⟨i, hi, hoverlaps, rfl⟩
  obtain ⟨j, hj, _, heq⟩ := mem_relevantParts.1 hpart
  refine ⟨j, hj, ?_, ?_⟩
  · rw [← Signature.meets_clip hs (hJ j hj), heq, Signature.meets_clip hs (hI i hi)]
    exact hm
  · rw [← Signature.residuals_clip hs (hJ j hj), heq, Signature.residuals_clip hs (hI i hi)]

/-- A residual is a residual for implementations with the same relevant
parts. -/
theorem IsResidual.of_relevantParts {s t : Signature} (hs : s.Within interface)
    (h : IsResidual I s t) : IsResidual J s t := by
  obtain ⟨i, hi, hm, ht⟩ := h
  obtain ⟨j, hj, hmj, hresiduals⟩ := exists_counterpart hI hJ hparts hs hi hm
  exact ⟨j, hj, hmj, hresiduals ▸ ht⟩

/-- A settled signature is settled by implementations with the same relevant
parts. -/
theorem IsSettled.of_relevantParts {visited : SignatureSet} {s : Signature}
    (hs : s.Within interface) (hinhabited : s.isInhabited = true) (h : IsSettled I visited s) :
    IsSettled J visited s := by
  rw [isSettled_iff hinhabited] at h ⊢
  obtain ⟨i, hi, hm, hvisited⟩ := h
  obtain ⟨j, hj, hmj, hresiduals⟩ := exists_counterpart hI hJ hparts hs hi hm
  exact ⟨j, hj, hmj, hresiduals ▸ hvisited⟩

/-- An unmatched signature is unmatched by implementations with the same
relevant parts. -/
theorem IsUnmatched.of_relevantParts {s : Signature} (hs : s.Within interface)
    (hinhabited : s.isInhabited = true) (h : IsUnmatched I s) : IsUnmatched J s := by
  rw [isUnmatched_iff hinhabited] at h ⊢
  intro j hj
  rw [Bool.eq_false_iff]
  intro hm
  obtain ⟨i, hi, hmi, _⟩ := exists_counterpart hJ hI hparts.symm hs hj hm
  rw [h i hi] at hmi
  cases hmi

end Counterparts

section Lockstep

variable {interface : Signature} {I J : List Signature}
  (hI : ∀ i ∈ I, i.arity = interface.arity) (hJ : ∀ j ∈ J, j.arity = interface.arity)
  (hinhabited : interface.isInhabited = true)
  (hparts : relevantParts interface I = relevantParts interface J)
include hI hJ hinhabited hparts

/-- A round from a reached state is a round for implementations with the same
relevant parts. -/
theorem IsRound.of_relevantParts {p next : Progress} (hp : Reached I interface p)
    (h : IsRound I p next) : IsRound J p next := by
  have hwithin : ∀ s ∈ p.frontier, s.Within interface :=
    fun s hs => hp.within hI (hp.mem_visited hs)
  have hinhabited : ∀ s ∈ p.frontier, s.isInhabited = true :=
    fun s hs => hp.isInhabited hI hinhabited (hp.mem_visited hs)
  refine ⟨h.rounds, fun t => ?_, h.mem_visited, fun t => ?_⟩
  · rw [h.mem_frontier]
    refine and_congr_right fun _ => ?_
    constructor
    · intro hfresh
      obtain ⟨s, hs, hsettled, hr⟩ := hfresh
      exact ⟨s, hs, fun hj => hsettled (hj.of_relevantParts hJ hI hparts.symm (hwithin s hs)
        (hinhabited s hs)), hr.of_relevantParts hI hJ hparts (hwithin s hs)⟩
    · intro hfresh
      obtain ⟨s, hs, hsettled, hr⟩ := hfresh
      exact ⟨s, hs, fun hi => hsettled (hi.of_relevantParts hI hJ hparts (hwithin s hs)
        (hinhabited s hs)), hr.of_relevantParts hJ hI hparts.symm (hwithin s hs)⟩
  · rw [h.mem_leaves]
    refine or_congr_right (and_congr_right fun ht => ?_)
    constructor
    · intro hu
      exact hu.of_relevantParts hI hJ hparts (hwithin t ht) (hinhabited t ht)
    · intro hu
      exact hu.of_relevantParts hJ hI hparts.symm (hwithin t ht) (hinhabited t ht)

end Lockstep

namespace Solver

variable {first second : Solver} {interface : Signature}

/-- Two analyses with the same budget and the same relevant parts go on alike
from every reached state. -/
theorem explore_eq_of_relevantParts {p : Progress} (hbudget : first.budget = second.budget)
    (hfirst : ∀ i ∈ first.implementations, i.arity = interface.arity)
    (hsecond : ∀ i ∈ second.implementations, i.arity = interface.arity)
    (hinhabited : interface.isInhabited = true)
    (hparts : relevantParts interface first.implementations =
      relevantParts interface second.implementations)
    (hp : Reached first.implementations interface p) :
    first.explore interface p = second.explore interface p := by
  have hexhausted : first.isExhausted p.rounds = second.isExhausted p.rounds := by
    rw [isExhausted, isExhausted, hbudget]
  by_cases hempty : p.frontier.isEmpty = true
  · rw [explore_of_isEmpty hempty, explore_of_isEmpty hempty]
  · have hne : p.frontier.isEmpty = false := Bool.eq_false_iff.2 hempty
    by_cases hx : first.isExhausted p.rounds = true
    · rw [explore_of_isExhausted hne hx, explore_of_isExhausted hne (hexhausted ▸ hx)]
    · have hx : first.isExhausted p.rounds = false := Bool.eq_false_iff.2 hx
      have harity : ∀ s ∈ p.frontier, s.arity = interface.arity :=
        fun s hs => (hp.within hfirst (hp.mem_visited hs)).1
      obtain ⟨next, hadvance, hround⟩ := exists_advance
        fun s (hs : s ∈ p.frontier) i hi => (harity s hs).trans (hfirst i hi).symm
      obtain ⟨other, hadvance', hround'⟩ := exists_advance
        fun s (hs : s ∈ p.frontier) i hi => (harity s hs).trans (hsecond i hi).symm
      -- The steps may stop at different implementations, but both states have
      -- the same members and sets are determined by their members.
      have hsame : other = next := hround'.unique
        (hround.of_relevantParts hfirst hsecond hinhabited hparts hp)
      rw [hsame] at hadvance'
      have hsmaller := sizeBound_advance_lt hne hadvance
      rw [explore_of_advance hne hx hadvance, explore_of_advance hne (hexhausted ▸ hx) hadvance',
        explore_eq_of_relevantParts hbudget hfirst hsecond hinhabited hparts
          (.round hp hne hround)]
termination_by sizeBound p.frontier.toList

/-- Two analyses with the same budget and the same relevant parts have the same
outcome. -/
theorem solve_eq_of_relevantParts (hbudget : first.budget = second.budget)
    (hfirst : ∀ i ∈ first.implementations, i.arity = interface.arity)
    (hsecond : ∀ i ∈ second.implementations, i.arity = interface.arity)
    (hparts : relevantParts interface first.implementations =
      relevantParts interface second.implementations) :
    first.solve interface = second.solve interface := by
  by_cases hinhabited : interface.isInhabited = true
  · rw [solve_eq_explore hfirst hinhabited, solve_eq_explore hsecond hinhabited]
    exact explore_eq_of_relevantParts hbudget hfirst hsecond hinhabited hparts .start
  · have hempty : interface.isInhabited = false := Bool.eq_false_iff.2 hinhabited
    rw [solve_of_not_isInhabited hfirst hempty, solve_of_not_isInhabited hsecond hempty]

/-- The outcome of an analysis, with its leaves, rounds and pending signatures,
depends only on the budget and on the set of relevant parts. So it stays the
same when implementations are reordered or repeated, when implementations that
do not overlap the interface come or go, and when implementations are changed
outside of the interface. -/
theorem solve_determined_by_relevantParts {solver : Solver} {interface : Signature}
    (harity : ∀ i ∈ solver.implementations, i.arity = interface.arity) :
    (∀ other : Solver, other.budget = solver.budget →
        (∀ i ∈ other.implementations, i.arity = interface.arity) →
        relevantParts interface other.implementations =
          relevantParts interface solver.implementations →
        other.solve interface = solver.solve interface) ∧
      (∀ others : List Signature, (∀ i ∈ others, i.arity = interface.arity) →
        (∀ i, i.meets interface = true → (i ∈ others ↔ i ∈ solver.implementations)) →
        { solver with implementations := others }.solve interface = solver.solve interface) ∧
      ∀ f : Signature → Signature, (∀ i ∈ solver.implementations,
          (f i).arity = interface.arity ∧ (f i).meet interface = i.meet interface) →
        { solver with implementations := solver.implementations.map f }.solve interface =
          solver.solve interface := by
  refine ⟨fun other hbudget hother hparts => ?_, fun others hothers hsame => ?_, fun f hf => ?_⟩
  · exact solve_eq_of_relevantParts hbudget hother harity hparts
  · have hparts := relevantParts_congr hsame
    exact solve_eq_of_relevantParts rfl hothers harity hparts
  · have hmapped : ∀ i ∈ solver.implementations.map f, i.arity = interface.arity := by
      intro j hj
      obtain ⟨i, hi, rfl⟩ := List.mem_map.1 hj
      exact (hf i hi).1
    have hparts := relevantParts_map fun i hi => (hf i hi).2
    exact solve_eq_of_relevantParts rfl hmapped harity hparts

/-- The two corners in the other order, one of them twice and one with a tag
from outside of the square, beside an implementation that misses the square. -/
def rearrangedCorners : Solver :=
  { implementations := [.ofLetters [['B', 'C'], ['Y']], .ofLetters [['A'], ['X']],
      .ofLetters [['C'], ['X', 'Y']], .ofLetters [['A'], ['X']]] }

/-- The rearranged corners give the same outcome for the square, and so do the
corners in reverse order and the corners cut to the square. -/
theorem solve_rearrangedCorners :
    (∀ i ∈ (corners none).implementations, i.arity = square.arity) ∧
      (∀ i ∈ rearrangedCorners.implementations, i.arity = square.arity) ∧
      relevantParts square rearrangedCorners.implementations =
        relevantParts square (corners none).implementations ∧
      rearrangedCorners.solve square = (corners none).solve square ∧
      { corners none with
        implementations := (corners none).implementations.reverse }.solve square =
          (corners none).solve square ∧
      { corners none with
        implementations := (corners none).implementations.map (Signature.meet · square) }.solve
          square = (corners none).solve square := by
  have harity : ∀ i ∈ (corners none).implementations, i.arity = square.arity := by decide
  have hother : ∀ i ∈ rearrangedCorners.implementations, i.arity = square.arity := by decide
  have hparts : relevantParts square rearrangedCorners.implementations =
      relevantParts square (corners none).implementations := by decide +kernel
  have hreverse : ∀ i ∈ (corners none).implementations.reverse, i.arity = square.arity :=
    fun i hi => harity i (List.mem_reverse.1 hi)
  have hcut : ∀ i ∈ (corners none).implementations, (i.meet square).arity = square.arity ∧
      (i.meet square).meet square = i.meet square := by decide +kernel
  obtain ⟨hsets, hmembers, houtside⟩ := solve_determined_by_relevantParts harity
  exact ⟨harity, hother, hparts, hsets rearrangedCorners rfl hother hparts,
    hmembers _ hreverse fun i _ => List.mem_reverse, houtside _ hcut⟩

end Solver

end DispatchCoverage

import DispatchCoverage.Proofs.Rounds

/-!
# The course of an analysis

The states at the head of the loop of rounds form a chain that starts with the
interface alone on the frontier. What every visited signature keeps from the
interface is shown once, round by round. An analysis ends at one of these
states: with the leaves found so far if the frontier is empty, and otherwise
because the count of rounds has reached the budget.
-/

namespace DispatchCoverage

/-- The states between two rounds that are reached from an interface. -/
inductive Reached (implementations : List Signature) (interface : Signature) : Progress → Prop
  /-- The state before the first round. -/
  | start : Reached implementations interface (Solver.start interface)
  /-- The state after one more round. -/
  | round {p next : Progress} : Reached implementations interface p → p.frontier.isEmpty = false →
      IsRound implementations p next → Reached implementations interface next

/-- The interface alone is visited before the first round. -/
theorem mem_visited_start {interface s : Signature} :
    s ∈ (Solver.start interface).visited ↔ s = interface := by
  rw [Solver.start, Ascending.mem_ofList, List.mem_singleton]

/-- The interface alone is on the frontier before the first round. -/
theorem mem_frontier_start {interface s : Signature} :
    s ∈ (Solver.start interface).frontier ↔ s = interface := by
  rw [Solver.start, Ascending.mem_ofList, List.mem_singleton]

/-- The frontier is not empty before the first round. -/
theorem isEmpty_frontier_start (interface : Signature) :
    (Solver.start interface).frontier.isEmpty = false :=
  Ascending.isEmpty_eq_false_iff.2 ⟨interface, mem_frontier_start.2 rfl⟩

section Invariants

variable {implementations : List Signature} {interface : Signature} {p : Progress}

/-- The frontier was visited. -/
theorem Reached.mem_visited (h : Reached implementations interface p) {s : Signature}
    (hs : s ∈ p.frontier) : s ∈ p.visited := by
  cases h with
  | start => exact mem_visited_start.2 (mem_frontier_start.1 hs)
  | round _ _ hround => exact (hround.mem_visited s).2 (.inl hs)

/-- The interface was visited. -/
theorem Reached.interface_mem_visited (h : Reached implementations interface p) :
    interface ∈ p.visited := by
  induction h with
  | start => exact mem_visited_start.2 rfl
  | round _ _ hround ih => exact (hround.mem_visited _).2 (.inr ih)

/-- What holds of the interface and passes from a signature to its residuals
holds of every visited signature. -/
theorem Reached.of_mem_visited (h : Reached implementations interface p)
    (holds : Signature → Prop) (hstart : holds interface)
    (hresidual : ∀ s t, holds s → IsResidual implementations s t → holds t) {s : Signature}
    (hs : s ∈ p.visited) : holds s := by
  induction h generalizing s with
  | start => exact mem_visited_start.1 hs ▸ hstart
  | round hp _ hround ih =>
    rcases (hround.mem_visited s).1 hs with hnew | hold
    · obtain ⟨_, u, hu, _, hr⟩ := (hround.mem_frontier s).1 hnew
      exact hresidual u s (ih (hp.mem_visited hu)) hr
    · exact ih hold

variable (harity : ∀ i ∈ implementations, i.arity = interface.arity)
  (hinhabited : interface.isInhabited = true)
include harity

/-- Every visited signature is within the interface. -/
theorem Reached.within (h : Reached implementations interface p) {s : Signature}
    (hs : s ∈ p.visited) : s.Within interface := by
  refine h.of_mem_visited (fun s => s.Within interface) (Signature.Within.refl interface)
    (fun s t hst hr => ?_) hs
  exact (hr.within fun i hi => hst.1.trans (harity i hi).symm).trans hst

/-- Every visited signature has the arity of the implementations. -/
theorem Reached.arity_eq (h : Reached implementations interface p) {s : Signature}
    (hs : s ∈ p.visited) {i : Signature} (hi : i ∈ implementations) : s.arity = i.arity :=
  (h.within harity hs).1.trans (harity i hi).symm

include hinhabited

/-- Every visited signature is inhabited. -/
theorem Reached.isInhabited (h : Reached implementations interface p) {s : Signature}
    (hs : s ∈ p.visited) : s.isInhabited = true := by
  have hboth : s.isInhabited = true ∧ s.arity = interface.arity := by
    refine h.of_mem_visited (fun s => s.isInhabited = true ∧ s.arity = interface.arity)
      ⟨hinhabited, rfl⟩ (fun s t hst hr => ?_) hs
    have hsame : ∀ i ∈ implementations, s.arity = i.arity :=
      fun i hi => hst.2.trans (harity i hi).symm
    exact ⟨hr.isInhabited hsame, (hr.within hsame).1.trans hst.2⟩
  exact hboth.1

end Invariants

/-- How an analysis that stands between two rounds ends there. -/
inductive EndsAt (solver : Solver) (interface : Signature) (p : Progress) (outcome : Outcome) :
    Prop
  /-- Nothing is left to check, and the leaves are the result. -/
  | finished (hempty : p.frontier.isEmpty = true) (hresult : outcome.result = .ok p.leaves)
      (hrounds : outcome.rounds = p.rounds)
  /-- The budget is used up with signatures left to check. -/
  | abandoned (budget : RoundBudget) (hbudget : solver.budget = some budget)
      (hlimit : p.rounds = budget.limit) (hpending : p.frontier.isEmpty = false)
      (hresult : outcome.result =
        .error (.budgetExceeded interface p.rounds p.leaves p.frontier))
      (hrounds : outcome.rounds = p.rounds)

/-- An analysis shows the count of rounds of the state at which it ends. -/
theorem EndsAt.rounds_eq {solver : Solver} {interface : Signature} {p : Progress}
    {outcome : Outcome} (h : EndsAt solver interface p outcome) : outcome.rounds = p.rounds := by
  cases h with
  | finished _ _ hrounds => exact hrounds
  | abandoned _ _ _ _ _ hrounds => exact hrounds

section Advance

variable {solver : Solver} {interface : Signature} {p : Progress}
  (harity : ∀ i ∈ solver.implementations, i.arity = interface.arity)
  (hp : Reached solver.implementations interface p)
include harity hp

/-- A round from a reached state succeeds without a warning. -/
theorem Reached.exists_advance :
    ∃ next, solver.advance p = .ok ⟨next, [], p.frontier.toList⟩ ∧
      IsRound solver.implementations p next :=
  Solver.exists_advance fun _ hs _ hi => hp.arity_eq harity (hp.mem_visited hs) hi

/-- A round from a reached state is described by its members. -/
theorem Reached.isRound_of_advance {round : Round} (h : solver.advance p = .ok round) :
    IsRound solver.implementations p round.next := by
  obtain ⟨next', hadvance, hround⟩ := hp.exists_advance harity
  rw [h] at hadvance
  cases hadvance
  exact hround

end Advance

namespace Solver

variable {solver : Solver} {interface : Signature} {p : Progress}

/-- A budget is used up when the count of rounds has reached its limit. -/
theorem isExhausted_iff {rounds : Nat} :
    solver.isExhausted rounds = true ↔
      ∃ budget, solver.budget = some budget ∧ budget.limit ≤ rounds := by
  rw [isExhausted]
  cases solver.budget with
  | none => simp
  | some budget => simp

/-- A budget is not used up while the count of rounds is below its limit. -/
theorem isExhausted_eq_false_iff {rounds : Nat} :
    solver.isExhausted rounds = false ↔
      ∀ budget, solver.budget = some budget → rounds < budget.limit := by
  rw [Bool.eq_false_iff, ne_eq, isExhausted_iff]
  simp only [not_exists, not_and, Nat.not_le]

/-- An analysis with an empty frontier is finished. -/
theorem course_of_isEmpty (h : p.frontier.isEmpty = true) :
    solver.course interface p =
      ⟨⟨.ok p.leaves, p.rounds, [.finished interface p.rounds p.leaves.size]⟩, []⟩ := by
  rw [course, dif_pos h]

/-- An analysis with signatures left is abandoned when its budget is used
up. -/
theorem course_of_isExhausted (hne : p.frontier.isEmpty = false)
    (h : solver.isExhausted p.rounds = true) :
    solver.course interface p =
      ⟨⟨.error (.budgetExceeded interface p.rounds p.leaves p.frontier), p.rounds, []⟩, []⟩ := by
  rw [course, dif_neg (Bool.eq_false_iff.1 hne), if_pos h]

/-- Any other analysis goes on after one round. -/
theorem course_of_advance {round : Round} (hne : p.frontier.isEmpty = false)
    (hx : solver.isExhausted p.rounds = false) (h : solver.advance p = .ok round) :
    solver.course interface p =
      { outcome := { solver.explore interface round.next with
          events := .round (p.rounds + 1) interface p.frontier.size p.leaves.size ::
            round.events ++ (solver.explore interface round.next).events }
        history := round :: (solver.course interface round.next).history } := by
  rw [course, dif_neg (Bool.eq_false_iff.1 hne), if_neg (Bool.eq_false_iff.1 hx)]
  split
  · rename_i e he
    rw [h] at he
    cases he
  · rename_i round' he
    rw [h] at he
    cases he
    rfl

/-- The outcome of an analysis that is finished. -/
theorem explore_of_isEmpty (h : p.frontier.isEmpty = true) :
    solver.explore interface p =
      ⟨.ok p.leaves, p.rounds, [.finished interface p.rounds p.leaves.size]⟩ := by
  rw [explore, course_of_isEmpty h]

/-- The outcome of an analysis that is abandoned. -/
theorem explore_of_isExhausted (hne : p.frontier.isEmpty = false)
    (h : solver.isExhausted p.rounds = true) :
    solver.explore interface p =
      ⟨.error (.budgetExceeded interface p.rounds p.leaves p.frontier), p.rounds, []⟩ := by
  rw [explore, course_of_isExhausted hne h]

/-- The outcome of any other analysis is that after one round, with the events
of the round in front. -/
theorem explore_of_advance {round : Round} (hne : p.frontier.isEmpty = false)
    (hx : solver.isExhausted p.rounds = false) (h : solver.advance p = .ok round) :
    solver.explore interface p =
      { solver.explore interface round.next with
        events := .round (p.rounds + 1) interface p.frontier.size p.leaves.size ::
          round.events ++ (solver.explore interface round.next).events } := by
  rw [explore, course_of_advance hne hx h]

/-- Where an analysis that went on from a state stands after its last
round. -/
def final (solver : Solver) (interface : Signature) (p : Progress) : Progress :=
  (solver.course interface p).history.foldl (fun _ round => round.next) p

/-- One more round in front does not change where an analysis ends. -/
theorem final_of_advance {round : Round} (hne : p.frontier.isEmpty = false)
    (hx : solver.isExhausted p.rounds = false) (h : solver.advance p = .ok round) :
    solver.final interface p = solver.final interface round.next := by
  rw [final, course_of_advance hne hx h]
  rfl

/-- An analysis that goes on from a reached state within its budget comes to a
reached state after its last round, and ends there. -/
theorem endsAt_final {p : Progress}
    (harity : ∀ i ∈ solver.implementations, i.arity = interface.arity)
    (hp : Reached solver.implementations interface p)
    (hwithin : ∀ budget, solver.budget = some budget → p.rounds ≤ budget.limit) :
    Reached solver.implementations interface (solver.final interface p) ∧
      EndsAt solver interface (solver.final interface p) (solver.explore interface p) := by
  by_cases hempty : p.frontier.isEmpty = true
  · have hfinal : solver.final interface p = p := by rw [final, course_of_isEmpty hempty]; rfl
    rw [hfinal, explore_of_isEmpty hempty]
    exact ⟨hp, .finished hempty rfl rfl⟩
  · have hne : p.frontier.isEmpty = false := Bool.eq_false_iff.2 hempty
    by_cases hx : solver.isExhausted p.rounds = true
    · have hfinal : solver.final interface p = p := by
        rw [final, course_of_isExhausted hne hx]
        rfl
      obtain ⟨budget, hbudget, hle⟩ := isExhausted_iff.1 hx
      have hlimit : p.rounds = budget.limit := Nat.le_antisymm (hwithin budget hbudget) hle
      rw [hfinal, explore_of_isExhausted hne hx]
      exact ⟨hp, .abandoned budget hbudget hlimit hne rfl rfl⟩
    · have hwithinLimit : solver.isExhausted p.rounds = false := Bool.eq_false_iff.2 hx
      obtain ⟨next, hadvance, hround⟩ := hp.exists_advance harity
      -- The count is below the limit here, so one more round stays within it.
      have hnext : ∀ budget, solver.budget = some budget → next.rounds ≤ budget.limit := by
        intro budget hbudget
        rw [hround.rounds]
        exact isExhausted_eq_false_iff.1 hwithinLimit budget hbudget
      have hsmaller := sizeBound_advance_lt hne hadvance
      obtain ⟨hreached, hends⟩ := endsAt_final harity (.round hp hne hround) hnext
      rw [final_of_advance hne hwithinLimit hadvance,
        explore_of_advance hne hwithinLimit hadvance]
      refine ⟨hreached, ?_⟩
      cases hends with
      | finished he hr hn => exact .finished he hr hn
      | abandoned budget hb hl hf hr hn => exact .abandoned budget hb hl hf hr hn
termination_by sizeBound p.frontier.toList

/-- No implementation has a different arity when all arities agree. -/
theorem mismatch?_eq_none (harity : ∀ i ∈ solver.implementations, i.arity = interface.arity) :
    solver.mismatch? interface = none := by
  rw [mismatch?, Option.map_eq_none_iff, List.find?_eq_none]
  intro i hi hn
  exact of_decide_eq_true hn (harity i hi).symm

/-- The analysis of an inhabited interface starts with the interface alone on
the frontier. -/
theorem solve_eq_explore (harity : ∀ i ∈ solver.implementations, i.arity = interface.arity)
    (hinhabited : interface.isInhabited = true) :
    solver.solve interface = solver.explore interface (start interface) := by
  rw [solve, mismatch?_eq_none harity]
  dsimp only
  rw [if_pos hinhabited]

/-- The analysis of an inhabited interface ends at a reached state. -/
theorem exists_endsAt_solve (harity : ∀ i ∈ solver.implementations, i.arity = interface.arity)
    (hinhabited : interface.isInhabited = true) :
    ∃ q, Reached solver.implementations interface q ∧
      EndsAt solver interface q (solver.solve interface) := by
  rw [solve_eq_explore harity hinhabited]
  exact ⟨_, endsAt_final harity .start fun budget _ => Nat.zero_le budget.limit⟩

/-- The analysis of an uninhabited interface ends at once. -/
theorem solve_of_not_isInhabited
    (harity : ∀ i ∈ solver.implementations, i.arity = interface.arity)
    (hinhabited : interface.isInhabited = false) : solver.solve interface = ⟨.ok ∅, 0, []⟩ := by
  rw [solve, mismatch?_eq_none harity]
  dsimp only
  rw [if_neg (Bool.eq_false_iff.1 hinhabited)]

end Solver

end DispatchCoverage

import DispatchCoverage.Proofs.RoundBound

/-!
# Budgets cut an analysis short

The states between two rounds form a single chain: no two of them count the
same number of rounds, and leaves are never given up on the way. An analysis
with a budget walks along the same chain as one without, so it either ends at
the same state, or stops where the count of rounds reaches the budget. What was
asked of the solver before leaves nothing behind but the count of rounds, which
only an analysis of mismatched arities shows again.
-/

namespace DispatchCoverage

section Chain

variable {implementations : List Signature} {interface : Signature} {p q : Progress}
  (hp : Reached implementations interface p) (hq : Reached implementations interface q)

include hp hq in
/-- There is one reached state for a number of rounds. -/
theorem Reached.eq_of_rounds_eq (h : p.rounds = q.rounds) : p = q := by
  induction hp generalizing q with
  | start =>
    cases hq with
    | start => rfl
    | round _ _ hround =>
      rw [hround.rounds] at h
      exact absurd h (Nat.succ_ne_zero _).symm
  | round _ _ hround ih =>
    cases hq with
    | start =>
      rw [hround.rounds] at h
      exact absurd h (Nat.succ_ne_zero _)
    | round hq _ hround' =>
      rw [hround.rounds, hround'.rounds] at h
      have hsame := ih hq (Nat.succ.inj h)
      subst hsame
      exact hround.unique hround'

include hq in
/-- Every smaller number of rounds belongs to a reached state with pending
signatures, whose leaves stay leaves. -/
theorem Reached.exists_earlier {n : Nat} (hn : n < q.rounds) :
    ∃ p, Reached implementations interface p ∧ p.rounds = n ∧ p.frontier.isEmpty = false ∧
      ∀ s ∈ p.leaves, s ∈ q.leaves := by
  induction hq with
  | start => exact absurd hn (Nat.not_lt_zero n)
  | @round p next hp hne hround ih =>
    have hkeeps : ∀ s ∈ p.leaves, s ∈ next.leaves :=
      fun s hs => (hround.mem_leaves s).2 (.inl hs)
    by_cases hlt : n < p.rounds
    · obtain ⟨u, hu, hrounds, hpending, hleaves⟩ := ih hlt
      exact ⟨u, hu, hrounds, hpending, fun s hs => hkeeps s (hleaves s hs)⟩
    · have hnext := hround.rounds
      exact ⟨p, hp, by omega, hne, hkeeps⟩

include hp hq in
/-- No reached state counts more rounds than one that has nothing pending. -/
theorem Reached.rounds_le_of_isEmpty (hempty : p.frontier.isEmpty = true) :
    q.rounds ≤ p.rounds := by
  by_contra hlt
  obtain ⟨u, hu, hrounds, hpending, _⟩ := hq.exists_earlier (Nat.not_le.1 hlt)
  rw [hu.eq_of_rounds_eq hp hrounds, hempty] at hpending
  cases hpending

include hp hq in
/-- There is at most one reached state that has nothing pending. -/
theorem Reached.eq_of_isEmpty (hempty : p.frontier.isEmpty = true)
    (hempty' : q.frontier.isEmpty = true) : p = q := by
  have hle := hp.rounds_le_of_isEmpty hq hempty
  have hge := hq.rounds_le_of_isEmpty hp hempty'
  exact hp.eq_of_rounds_eq hq (Nat.le_antisymm hge hle)

end Chain

namespace Solver

variable {solver : Solver} {interface : Signature} {budget : RoundBudget}

/-- A round counts as one. -/
theorem rounds_of_advance {p : Progress} {round : Round} (h : solver.advance p = .ok round) :
    round.next.rounds = p.rounds + 1 := by
  unfold advance at h
  split at h
  · cases h
  · cases h
    rfl

/-- An analysis that goes on within its budget counts no more rounds than the
budget allows. -/
theorem rounds_explore_le {p : Progress} (hbudget : solver.budget = some budget)
    (h : p.rounds ≤ budget.limit) : (solver.explore interface p).rounds ≤ budget.limit := by
  have hlt : ∀ rounds, ¬ solver.isExhausted rounds = true → rounds < budget.limit :=
    fun rounds hx => isExhausted_eq_false_iff.1 (Bool.eq_false_iff.2 hx) budget hbudget
  rw [explore]
  fun_induction course solver interface p with
  | case1 p hempty => exact h
  | case2 p hne hx => exact h
  | case3 p hne hx start e he => exact hlt p.rounds hx
  | case4 p hne hx start round hadvance rest ih =>
    refine ih ?_
    rw [rounds_of_advance hadvance]
    exact hlt p.rounds hx

/-- An analysis within a budget counts no more rounds than the budget
allows. -/
theorem rounds_solve_le (harity : ∀ i ∈ solver.implementations, i.arity = interface.arity)
    (hbudget : solver.budget = some budget) : (solver.solve interface).rounds ≤ budget.limit := by
  by_cases hinhabited : interface.isInhabited = true
  · rw [solve_eq_explore harity hinhabited]
    exact rounds_explore_le hbudget (Nat.zero_le budget.limit)
  · rw [solve_of_not_isInhabited harity (Bool.eq_false_iff.2 hinhabited)]
    exact Nat.zero_le budget.limit

/-- Without a budget the analysis of an inhabited interface ends at a reached
state that has nothing pending. -/
theorem exists_finished_of_budget_eq_none (hbudget : solver.budget = none)
    (harity : ∀ i ∈ solver.implementations, i.arity = interface.arity)
    (hinhabited : interface.isInhabited = true) :
    ∃ q, Reached solver.implementations interface q ∧ q.frontier.isEmpty = true ∧
      (solver.solve interface).result = .ok q.leaves ∧
      (solver.solve interface).rounds = q.rounds := by
  refine exists_finished solver harity hinhabited fun budget hsome => ?_
  rw [hbudget] at hsome
  cases hsome

section Budget

variable {free : Solver} (hfree : free.budget = none)
  (hsame : free.implementations = solver.implementations)
  (harity : ∀ i ∈ solver.implementations, i.arity = interface.arity)
  (hbudget : solver.budget = some budget)
include hfree hsame harity hbudget

/-- A budget that allows the rounds of the analysis without a budget makes no
difference. -/
theorem solve_of_rounds_le (hle : (free.solve interface).rounds ≤ budget.limit) :
    (solver.solve interface).result = (free.solve interface).result ∧
      (solver.solve interface).rounds = (free.solve interface).rounds := by
  have harity' : ∀ i ∈ free.implementations, i.arity = interface.arity := by
    rw [hsame]
    exact harity
  by_cases hinhabited : interface.isInhabited = true
  · obtain ⟨q, hq, hempty, hresult, hrounds⟩ :=
      exists_finished_of_budget_eq_none hfree harity' hinhabited
    rw [hsame] at hq
    rw [hrounds] at hle
    rw [hresult, hrounds]
    obtain ⟨r, hr, hends⟩ := exists_endsAt_solve harity hinhabited
    cases hends with
    | finished hempty' hresult' hrounds' =>
      have hend := hr.eq_of_isEmpty hq hempty' hempty
      rw [hresult', hrounds', hend]
      exact ⟨rfl, rfl⟩
    | abandoned limit hsome hlimit hpending _ _ =>
      rw [hbudget] at hsome
      cases hsome
      have hge := hq.rounds_le_of_isEmpty hr hempty
      rw [hr.eq_of_rounds_eq hq (by omega), hempty] at hpending
      cases hpending
  · have hnone : interface.isInhabited = false := Bool.eq_false_iff.2 hinhabited
    rw [solve_of_not_isInhabited harity hnone, solve_of_not_isInhabited harity' hnone]
    exact ⟨rfl, rfl⟩

/-- A smaller budget is used up, with leaves that the analysis without a budget
finds as well. -/
theorem solve_of_lt_rounds (hlt : budget.limit < (free.solve interface).rounds) :
    ∃ found pending, (solver.solve interface).result =
        .error (.budgetExceeded interface budget.limit found pending) ∧
      (∀ leaves, (free.solve interface).result = .ok leaves → ∀ s ∈ found, s ∈ leaves) ∧
      (solver.solve interface).rounds = budget.limit := by
  have harity' : ∀ i ∈ free.implementations, i.arity = interface.arity := by
    rw [hsame]
    exact harity
  by_cases hinhabited : interface.isInhabited = true
  · obtain ⟨q, hq, hempty, hresult, hrounds⟩ :=
      exists_finished_of_budget_eq_none hfree harity' hinhabited
    rw [hsame] at hq
    rw [hrounds] at hlt
    obtain ⟨r, hr, hends⟩ := exists_endsAt_solve harity hinhabited
    cases hends with
    | finished hempty' _ hrounds' =>
      have hend := hr.eq_of_isEmpty hq hempty' hempty
      have hle := rounds_solve_le harity hbudget
      rw [hrounds', hend] at hle
      omega
    | abandoned limit hsome hlimit hpending hresult' hrounds' =>
      rw [hbudget] at hsome
      cases hsome
      obtain ⟨u, hu, hcount, _, hleaves⟩ := hq.exists_earlier hlt
      have hstop := hu.eq_of_rounds_eq hr (by omega)
      rw [hstop] at hleaves
      refine ⟨r.leaves, r.frontier, by rw [hresult', hlimit], fun leaves hok => ?_,
        by rw [hrounds', hlimit]⟩
      rw [hresult] at hok
      cases hok
      exact hleaves
  · rw [solve_of_not_isInhabited harity' (Bool.eq_false_iff.2 hinhabited)] at hlt
    exact absurd hlt (Nat.not_lt_zero _)

end Budget

/-! ## Mismatched arities -/

/-- A mismatch names the interface and the first implementation of another
arity. -/
theorem mismatch?_eq_some_iff {m : ArityMismatch} :
    solver.mismatch? interface = some m ↔ m.left = interface ∧
      ∃ earlier rest, solver.implementations = earlier ++ m.right :: rest ∧
        m.right.arity ≠ interface.arity ∧ ∀ i ∈ earlier, i.arity = interface.arity := by
  obtain ⟨left, right⟩ := m
  simp only [mismatch?, Option.map_eq_some_iff, List.find?_eq_some_iff_append, decide_eq_true_eq,
    ArityMismatch.mk.injEq, Bool.not_eq_true', decide_eq_false_iff_not, ne_eq, not_not]
  constructor
  · rintro ⟨i, ⟨hi, earlier, rest, hsplit, hearlier⟩, rfl, rfl⟩
    exact ⟨rfl, earlier, rest, hsplit, Ne.symm hi, fun j hj => (hearlier j hj).symm⟩
  · rintro ⟨rfl, earlier, rest, hsplit, hi, hearlier⟩
    exact ⟨right, ⟨Ne.symm hi, earlier, rest, hsplit, fun j hj => (hearlier j hj).symm⟩, rfl, rfl⟩

/-- There is a mismatch where an implementation has another arity. -/
theorem exists_mismatch?_iff :
    (∃ m, solver.mismatch? interface = some m) ↔
      ∃ i ∈ solver.implementations, i.arity ≠ interface.arity := by
  constructor
  · rintro ⟨m, hm⟩
    obtain ⟨_, earlier, rest, hsplit, hright, _⟩ := mismatch?_eq_some_iff.1 hm
    have hmem : m.right ∈ solver.implementations := by
      rw [hsplit]
      exact List.mem_append_right earlier List.mem_cons_self
    exact ⟨m.right, hmem, hright⟩
  · rintro ⟨i, hi, hne⟩
    have hsome : (solver.implementations.find? fun j => interface.arity ≠ j.arity).isSome :=
      List.find?_isSome.2 ⟨i, hi, decide_eq_true (Ne.symm hne)⟩
    obtain ⟨j, hj⟩ := Option.isSome_iff_exists.1 hsome
    exact ⟨⟨interface, j⟩, by rw [mismatch?, hj, Option.map_some]⟩

/-- An analysis is refused for a mismatch exactly if there is one. -/
theorem solve_eq_arity_iff {m : ArityMismatch} :
    (solver.solve interface).result = .error (.arity m) ↔ solver.mismatch? interface = some m := by
  constructor
  · intro h
    cases hm : solver.mismatch? interface with
    | some m' =>
      rw [solve, hm] at h
      cases h
      rfl
    | none =>
      have harity : ∀ i ∈ solver.implementations, i.arity = interface.arity := by
        intro i hi
        by_contra hne
        obtain ⟨m', hm'⟩ := exists_mismatch?_iff.2 ⟨i, hi, hne⟩
        rw [hm] at hm'
        cases hm'
      by_cases hinhabited : interface.isInhabited = true
      · obtain ⟨q, _, hends⟩ := exists_endsAt_solve harity hinhabited
        cases hends with
        | finished _ hresult _ =>
          rw [hresult] at h
          cases h
        | abandoned _ _ _ _ hresult _ =>
          rw [hresult] at h
          cases h
      · rw [solve_of_not_isInhabited harity (Bool.eq_false_iff.2 hinhabited)] at h
        cases h
  · intro hm
    rw [solve, hm]

/-- A mismatch leaves the count of rounds alone. -/
theorem rounds_of_mismatch? {m : ArityMismatch} (hm : solver.mismatch? interface = some m) :
    (solver.solve interface).rounds = solver.rounds := by
  rw [solve, hm]

/-! ## Solvers in use -/

/-- A call on a solver. -/
inductive Query where
  /-- Analyse an interface. -/
  | solve (interface : Signature)
  /-- Hold one signature against the implementations. -/
  | step (visited : SignatureSet) (s : Signature)

/-- The solver after a call, which an analysis may have ended with an error. -/
def ask (solver : Solver) : Query → Solver
  | .solve interface => solver.after (solver.solve interface)
  | .step _ _ => solver

/-- The solver after several calls, in order. -/
def askAll (solver : Solver) (queries : List Query) : Solver := queries.foldl ask solver

/-- A call changes nothing but the count of rounds. -/
theorem ask_eq (solver : Solver) (query : Query) :
    ∃ rounds, solver.ask query = { solver with rounds := rounds } := by
  cases query with
  | solve interface => exact ⟨(solver.solve interface).rounds, rfl⟩
  | step visited s => exact ⟨solver.rounds, rfl⟩

/-- Several calls change nothing but the count of rounds. -/
theorem askAll_eq (solver : Solver) (queries : List Query) :
    ∃ rounds, solver.askAll queries = { solver with rounds := rounds } := by
  induction queries generalizing solver with
  | nil => exact ⟨solver.rounds, rfl⟩
  | cons query queries ih =>
    obtain ⟨first, hfirst⟩ := solver.ask_eq query
    obtain ⟨last, hlast⟩ := ih (solver.ask query)
    refine ⟨last, ?_⟩
    calc solver.askAll (query :: queries)
        = { solver.ask query with rounds := last } := hlast
      _ = { solver with rounds := last } := by rw [hfirst]

/-- Whatever was asked of a solver before, an analysis with a budget is a
truncation of the one without. It gives the same leaves in the same number of
rounds if these are within the budget, and otherwise it stops after as many
rounds as the budget allows, with leaves among those of the full analysis. It is
refused for its arity exactly if some implementation has another one than the
interface; the first such implementation is named, and the count of rounds stays
as it was. -/
theorem solve_truncates (solver : Solver) (earlier : List Query) (interface : Signature) :
    let used := solver.askAll earlier
    let outcome := used.solve interface
    let full := { solver with budget := none }.solve interface
    (∀ budget, solver.budget = some budget →
      (∀ i ∈ solver.implementations, i.arity = interface.arity) →
      ∃ leaves, full.result = .ok leaves ∧
        (full.rounds ≤ budget.limit →
          outcome.result = .ok leaves ∧ outcome.rounds = full.rounds) ∧
        (budget.limit < full.rounds →
          ∃ found pending, outcome.result =
              .error (.budgetExceeded interface budget.limit found pending) ∧
            (∀ s ∈ found, s ∈ leaves) ∧ outcome.rounds = budget.limit)) ∧
    ((∃ m, outcome.result = .error (.arity m)) ↔
      ∃ i ∈ solver.implementations, i.arity ≠ interface.arity) ∧
    ∀ m, outcome.result = .error (.arity m) →
      m.left = interface ∧
      (∃ before rest, solver.implementations = before ++ m.right :: rest ∧
        m.right.arity ≠ interface.arity ∧ ∀ i ∈ before, i.arity = interface.arity) ∧
      outcome.rounds = used.rounds := by
  intro used outcome full
  obtain ⟨rounds, hused⟩ : ∃ rounds, used = { solver with rounds := rounds } :=
    solver.askAll_eq earlier
  have himplementations : used.implementations = solver.implementations := by rw [hused]
  refine ⟨fun budget hbudget harity => ?_, ?_, fun m hm => ?_⟩
  · have hlimited : used.budget = some budget := by rw [hused, hbudget]
    have hsame : ({ solver with budget := none } : Solver).implementations =
        used.implementations := himplementations.symm
    have harity' : ∀ i ∈ used.implementations, i.arity = interface.arity := by
      rw [himplementations]
      exact harity
    have hnone : ({ solver with budget := none } : Solver).budget = none := rfl
    obtain ⟨leaves, hleaves, _⟩ := exists_leaves hnone harity
    refine ⟨leaves, hleaves, fun hle => ?_, fun hlt => ?_⟩
    · have hall := solve_of_rounds_le hnone hsame harity' hlimited hle
      exact ⟨hall.1.trans hleaves, hall.2⟩
    · obtain ⟨found, pending, hresult, hfound, hrounds⟩ :=
        solve_of_lt_rounds hnone hsame harity' hlimited hlt
      exact ⟨found, pending, hresult, hfound leaves hleaves, hrounds⟩
  · rw [← himplementations, ← exists_mismatch?_iff]
    exact exists_congr fun m => solve_eq_arity_iff
  · have hmismatch := solve_eq_arity_iff.1 hm
    obtain ⟨hleft, hfirst⟩ := mismatch?_eq_some_iff.1 hmismatch
    rw [himplementations] at hfirst
    exact ⟨hleft, hfirst, rounds_of_mismatch? hmismatch⟩

/-- A single column, which has another arity than the corners of the square. -/
def column : Signature := .ofLetters [['A', 'B']]

/-- Checking the square takes two rounds. With a budget of one round, a solver
that has refused a column and made a step stops after that round, and refusing
the column again leaves this count behind. -/
theorem solve_truncates_square :
    (∃ found pending, (((corners (some ⟨1, by decide⟩)).askAll
        [.solve column, .step ∅ square]).solve square).result =
      .error (.budgetExceeded square 1 found pending)) ∧
    (((corners (some ⟨1, by decide⟩)).askAll [.solve square, .step ∅ column]).solve
      column).rounds = 1 := by
  have harity : ∀ i ∈ (corners (some ⟨1, by decide⟩)).implementations,
      i.arity = square.arity := by decide
  have hrounds : ((corners none).solve square).rounds = 2 := by decide +kernel
  have hmismatch : ∃ i ∈ (corners (some ⟨1, by decide⟩)).implementations,
      i.arity ≠ column.arity := by decide
  have hlt : 1 < ((corners none).solve square).rounds := by omega
  constructor
  · have hsolve := solve_truncates (corners (some ⟨1, by decide⟩)) [.solve column, .step ∅ square]
      square
    obtain ⟨leaves, _, _, hstop⟩ := hsolve.1 ⟨1, by decide⟩ rfl harity
    obtain ⟨found, pending, hresult, _, _⟩ := hstop hlt
    exact ⟨found, pending, hresult⟩
  · have hsolve := solve_truncates (corners (some ⟨1, by decide⟩)) [.solve square, .step ∅ column]
      column
    obtain ⟨m, hm⟩ := hsolve.2.1.2 hmismatch
    rw [(hsolve.2.2 m hm).2.2]
    decide +kernel

end Solver

end DispatchCoverage

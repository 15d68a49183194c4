import DispatchCoverage.Decomposition

/-!
# Coverage analysis in rounds

The analysis starts with the interface alone on the frontier. Every round
holds each signature of the frontier against the implementations and puts what
remains on the next frontier, unless it was visited before. Signatures that no
implementation overlaps are the leaves: the part of the interface that is left
unimplemented. Every round makes the greatest signature of the frontier
smaller, so the analysis ends; a budget may stop it earlier.
-/

namespace DispatchCoverage

/-- The greatest number of rounds that an analysis may take. -/
structure RoundBudget where
  /-- The number of rounds. -/
  limit : Nat
  /-- At least one round is allowed. -/
  positive : 0 < limit

namespace RoundBudget

/-- The budget of a number of rounds, if the number is positive. -/
def ofInt? (rounds : Int) : Option RoundBudget :=
  if h : 0 < rounds.toNat then some ⟨rounds.toNat, h⟩ else none

/-- The text that refuses a number of rounds. -/
def refusal : String := "The number of rounds must be positive."

end RoundBudget

/-- Why an analysis ended without a result. -/
inductive SolverError where
  /-- An implementation has a different number of parameters. -/
  | arity (mismatch : ArityMismatch)
  /-- Splitting a signature gave an uninhabited residual. -/
  | uninhabitedResidual (signature implementation residual : Signature)
  /-- The budget was used up with signatures left to check. -/
  | budgetExceeded (interface : Signature) (rounds : Nat) (leaves frontier : SignatureSet)
  deriving DecidableEq

/-- The text that reports that a budget was used up, where the interface and
the count of rounds are given as they are written. -/
def budgetText (interface rounds : String) (once : Bool) (pending : Nat) : String :=
  let plural := if once then "" else "s"
  s!"Gave up checking {interface} after {rounds} round{plural}, with {pending} signatures left to check."

/-- The text that reports an uninhabited residual, where the signatures are
given as they are written. -/
def residualText (signature implementation residual : String) : String :=
  s!"Decomposing {signature} under {implementation} produced the uninhabited signature {residual}."

/-- The text that reports the end of an analysis without a result. -/
def SolverError.message : SolverError → String
  | arity mismatch => mismatch.message
  | uninhabitedResidual signature implementation residual =>
    residualText (toString signature) (toString implementation) (toString residual)
  | budgetExceeded interface rounds _ frontier =>
    budgetText (toString interface) (toString rounds) (rounds == 1) frontier.size

/-- What an analysis reports about its course. -/
inductive Event where
  /-- A round begins. -/
  | round (number : Nat) (interface : Signature) (frontier leaves : Nat)
  /-- The frontier is empty. -/
  | finished (interface : Signature) (rounds leaves : Nat)
  /-- A signature counts as unimplemented because a residual is uninhabited. -/
  | uninhabited (signature implementation residual : Signature)

namespace Event

/-- The weight of an event: what only traces progress is for debugging. -/
def level : Event → String
  | round .. => "DEBUG"
  | finished .. => "DEBUG"
  | uninhabited .. => "WARNING"

/-- The text of an event. -/
def message : Event → String
  | round number interface frontier leaves =>
    s!"Round {number} of {interface}: {frontier} signatures on the frontier, {leaves} leaves"
  | finished interface rounds leaves =>
    s!"Checked {interface} in {rounds} rounds: {leaves} leaves"
  | uninhabited signature implementation residual =>
    s!"Uninhabited residual {residual} of {signature} under {implementation}; reporting {signature} as unimplemented"

end Event

/-- An analysis against fixed implementations. -/
structure Solver where
  /-- The implementations, in the order in which they are consulted. -/
  implementations : List Signature
  /-- The greatest number of rounds, if there is one. -/
  budget : Option RoundBudget := none
  /-- Whether an uninhabited residual is an error; otherwise the signature it
  came from counts as unimplemented. -/
  strict : Bool := true
  /-- The number of rounds of the latest analysis. -/
  rounds : Nat := 0

/-- Where an analysis stands between two rounds. -/
structure Progress where
  /-- The number of rounds so far. -/
  rounds : Nat
  /-- The signatures to check in the next round. -/
  frontier : SignatureSet
  /-- All signatures that have been on a frontier. -/
  visited : SignatureSet
  /-- The signatures found to be unimplemented. -/
  leaves : SignatureSet

/-- What one pass over a frontier has gathered so far. -/
structure Sweep where
  /-- The signatures that remain to be checked. -/
  successors : SignatureSet
  /-- The signatures found to be unimplemented. -/
  leaves : SignatureSet
  /-- The events of the pass. -/
  events : List Event
  /-- The signatures held against the implementations, one for each step, in
  order. -/
  steps : List Signature

namespace Sweep

/-- Take the verdict on one signature into a pass, and note the step that gave
it. -/
def add (pass : Sweep) (s : Signature) (verdict : Verdict) : Sweep :=
  let noted := { pass with steps := pass.steps ++ [s] }
  match verdict with
  | .covered => noted
  | .pending successors =>
    if successors.isEmpty then { noted with leaves := pass.leaves.insert s }
    else { noted with successors := successors.union pass.successors }
  | .inconsistent i t =>
    { noted with
      leaves := pass.leaves.insert s
      events := pass.events ++ [.uninhabited s i t] }

/-- Every verdict is noted as one step. -/
theorem steps_add (pass : Sweep) (s : Signature) (v : Verdict) :
    (pass.add s v).steps = pass.steps ++ [s] := by
  cases v with
  | covered => rfl
  | pending successors =>
    simp only [add]
    split <;> rfl
  | inconsistent i t => rfl

/-- Adding a verdict to a pass adds at most its successors. -/
theorem mem_successors_add {pass : Sweep} {s t : Signature} {v : Verdict}
    (h : t ∈ (pass.add s v).successors) : t ∈ v.successors ∨ t ∈ pass.successors := by
  cases v with
  | covered => exact .inr h
  | pending successors =>
    simp only [add] at h
    split at h
    · exact .inr h
    · exact Ascending.mem_union.1 h
  | inconsistent i t => exact .inr h

end Sweep

/-- A round that was carried out to its end. -/
structure Round where
  /-- Where the analysis stands after it. -/
  next : Progress
  /-- The events of its pass. -/
  events : List Event
  /-- The signatures that its pass held against the implementations, one for
  each step, in order. -/
  steps : List Signature

/-- The outcome of an analysis. -/
structure Outcome where
  /-- The leaves, or the reason why there is no result. -/
  result : Except SolverError SignatureSet
  /-- The number of rounds that the solver shows afterwards. -/
  rounds : Nat
  /-- The events, in order. -/
  events : List Event

/-- An analysis with its outcome and its history. -/
structure Course where
  /-- What the analysis came to. -/
  outcome : Outcome
  /-- The rounds that were carried out to their end, in order. -/
  history : List Round

namespace Solver

/-- Hold one signature against the implementations. -/
def step (solver : Solver) (visited : SignatureSet) (s : Signature) :
    Except SolverError Verdict :=
  match decompose solver.implementations visited s with
  | .error mismatch => .error (.arity mismatch)
  | .ok (.inconsistent i t) =>
    if solver.strict then .error (.uninhabitedResidual s i t) else .ok (.inconsistent i t)
  | .ok verdict => .ok verdict

/-- Hold the signatures of a frontier against the implementations, one after
the other. -/
def sweep (solver : Solver) (visited : SignatureSet) :
    List Signature → Sweep → Except SolverError Sweep
  | [], pass => .ok pass
  | s :: rest, pass =>
    match solver.step visited s with
    | .error e => .error e
    | .ok verdict => sweep solver visited rest (pass.add s verdict)

/-- Carry out one round. -/
def advance (solver : Solver) (p : Progress) : Except SolverError Round :=
  match solver.sweep p.visited p.frontier.toList ⟨∅, p.leaves, [], []⟩ with
  | .error e => .error e
  | .ok pass => .ok
      { next :=
          { rounds := p.rounds + 1
            frontier := pass.successors.diff p.visited
            visited := pass.successors.union p.visited
            leaves := pass.leaves }
        events := pass.events
        steps := pass.steps }

/-- What remains after a step has fewer tags than the signature it comes
from. -/
theorem size_lt_of_mem_step {solver : Solver} {visited : SignatureSet} {s t : Signature}
    {v : Verdict} (h : solver.step visited s = .ok v) (ht : t ∈ v.successors) :
    t.size < s.size := by
  unfold step at h
  split at h
  · cases h
  · split at h
    · cases h
    · cases h; exact absurd ht (Ascending.not_mem_empty t)
  · rename_i hd
    cases h
    exact size_lt_of_mem_decompose hd ht

/-- What a pass gathers has fewer tags than some signature of the frontier. -/
theorem size_lt_of_mem_sweep {solver : Solver} {visited : SignatureSet} {l : List Signature}
    {pass result : Sweep} (h : solver.sweep visited l pass = .ok result) {t : Signature}
    (ht : t ∈ result.successors) : t ∈ pass.successors ∨ ∃ s ∈ l, t.size < s.size := by
  induction l generalizing pass with
  | nil => cases h; exact .inl ht
  | cons a rest ih =>
    unfold sweep at h
    split at h
    · cases h
    · rename_i v hv
      rcases ih h with hp | ⟨s, hs, hlt⟩
      · rcases Sweep.mem_successors_add hp with hv' | hp
        · exact .inr ⟨a, List.mem_cons_self, size_lt_of_mem_step hv hv'⟩
        · exact .inl hp
      · exact .inr ⟨s, List.mem_cons_of_mem _ hs, hlt⟩

end Solver

/-- A bound that exceeds the number of tags of every signature in a list. -/
def sizeBound (l : List Signature) : Nat := l.foldr (fun s n => max (s.size + 1) n) 0

/-- The bound exceeds the number of tags of each signature. -/
theorem size_lt_sizeBound {l : List Signature} {s : Signature} (h : s ∈ l) :
    s.size < sizeBound l := by
  induction l with
  | nil => exact absurd h List.not_mem_nil
  | cons a rest ih =>
    show s.size < max (a.size + 1) (sizeBound rest)
    rcases List.mem_cons.1 h with rfl | h
    · omega
    · have := ih h
      omega

/-- The bound is the least one. -/
theorem sizeBound_le {l : List Signature} {n : Nat} (h : ∀ s ∈ l, s.size < n) :
    sizeBound l ≤ n := by
  induction l with
  | nil => exact Nat.zero_le n
  | cons a rest ih =>
    have ha := h a List.mem_cons_self
    have hr := ih fun s hs => h s (List.mem_cons_of_mem _ hs)
    show max (a.size + 1) (sizeBound rest) ≤ n
    omega

namespace Solver

/-- A round makes the greatest signature of the frontier smaller. -/
theorem sizeBound_advance_lt {solver : Solver} {p : Progress} {round : Round}
    (hne : p.frontier.isEmpty = false) (h : solver.advance p = .ok round) :
    sizeBound round.next.frontier.toList < sizeBound p.frontier.toList := by
  unfold advance at h
  split at h
  · cases h
  · rename_i pass hpass
    cases h
    obtain ⟨s, hs⟩ := Ascending.isEmpty_eq_false_iff.1 hne
    have hpos := size_lt_sizeBound (Ascending.mem_def.1 hs)
    have hle : sizeBound (pass.successors.diff p.visited).toList ≤
        sizeBound p.frontier.toList - 1 := by
      refine sizeBound_le fun t ht => ?_
      have ht := (Ascending.mem_diff.1 (Ascending.mem_def.2 ht)).1
      rcases size_lt_of_mem_sweep hpass ht with h | ⟨u, hu, hlt⟩
      · exact absurd h (Ascending.not_mem_empty t)
      · have := size_lt_sizeBound hu
        omega
    show sizeBound (pass.successors.diff p.visited).toList < _
    omega

/-- Whether the budget allows no further round. -/
def isExhausted (solver : Solver) (rounds : Nat) : Bool :=
  match solver.budget with
  | none => false
  | some budget => budget.limit ≤ rounds

/-- Carry out rounds until the frontier is empty or the budget is used up, and
keep every round that comes to its end. -/
def course (solver : Solver) (interface : Signature) (p : Progress) : Course :=
  if _hne : p.frontier.isEmpty then
    ⟨⟨.ok p.leaves, p.rounds, [.finished interface p.rounds p.leaves.size]⟩, []⟩
  else if solver.isExhausted p.rounds then
    ⟨⟨.error (.budgetExceeded interface p.rounds p.leaves p.frontier), p.rounds, []⟩, []⟩
  else
    let start := Event.round (p.rounds + 1) interface p.frontier.size p.leaves.size
    match h : solver.advance p with
    | .error e => ⟨⟨.error e, p.rounds + 1, [start]⟩, []⟩
    | .ok round =>
      let rest := solver.course interface round.next
      { outcome := { rest.outcome with events := start :: round.events ++ rest.outcome.events }
        history := round :: rest.history }
termination_by sizeBound p.frontier.toList
decreasing_by exact sizeBound_advance_lt (by simpa using _hne) h

/-- What comes of carrying out rounds until the frontier is empty or the budget
is used up. -/
def explore (solver : Solver) (interface : Signature) (p : Progress) : Outcome :=
  (solver.course interface p).outcome

/-- The analysis of an interface before its first round. -/
def start (interface : Signature) : Progress :=
  { rounds := 0
    frontier := Ascending.ofList [interface]
    visited := Ascending.ofList [interface]
    leaves := ∅ }

/-- The first implementation with a different number of parameters. -/
def mismatch? (solver : Solver) (interface : Signature) : Option ArityMismatch :=
  (solver.implementations.find? (fun i => interface.arity ≠ i.arity)).map (⟨interface, ·⟩)

/-- Find the parts of an interface that no implementation accepts. All arities
are compared first, and the count of rounds starts anew only if they agree. -/
def solve (solver : Solver) (interface : Signature) : Outcome :=
  match solver.mismatch? interface with
  | some mismatch => ⟨.error (.arity mismatch), solver.rounds, []⟩
  | none =>
    if interface.isInhabited then solver.explore interface (start interface)
    else ⟨.ok ∅, 0, []⟩

/-- The solver after an analysis, which shows its number of rounds. -/
def after (solver : Solver) (outcome : Outcome) : Solver :=
  { solver with rounds := outcome.rounds }

end Solver

/-- The parts of an interface that none of the implementations accepts. -/
def checkCompleteness (interface : Signature) (implementations : List Signature)
    (budget : Option RoundBudget := none) (strict : Bool := true) :
    Except SolverError SignatureSet :=
  ((Solver.mk implementations budget strict 0).solve interface).result

end DispatchCoverage

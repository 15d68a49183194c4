import DispatchCoverage.Value.Fingerprint
import DispatchCoverage.Value.Operators

/-!
# Analyses of loosely typed values

An analysis may be given values of any kind for its interface and its
implementations. A value that is no signature is noticed only when its turn
comes: the interface is held against the implementations one by one, and an
implementation that is no signature ends the analysis when it is reached. On
signatures alone the analysis and its steps are those of a solver
(`solve_signature`, `step_signature`).
-/

namespace DispatchCoverage

/-- An analysis against fixed implementations of any kind. -/
structure LooseSolver where
  /-- The implementations, in order. -/
  implementations : List Value
  /-- The greatest number of rounds, if there is one. -/
  budget : Option RoundBudget := none
  /-- Whether an uninhabited residual is an error. -/
  strict : Bool := true
  /-- The number of rounds of the latest analysis. -/
  rounds : Nat := 0

/-- The outcome of an analysis of loosely typed values. -/
structure LooseOutcome where
  /-- The leaves, or the reason why there is no result. -/
  result : Except Fault SignatureSet
  /-- The number of rounds that the solver shows afterwards. -/
  rounds : Nat
  /-- The events, in order. -/
  events : List Event

/-- The signatures in front of the first value that is none. -/
def leadingSignatures : List Value → List Signature
  | [] => []
  | v :: rest =>
    match v.asSignature? with
    | some s => s :: leadingSignatures rest
    | none => []

/-- Signatures alone are all in front. -/
theorem leadingSignatures_map (ss : List Signature) :
    leadingSignatures (ss.map .signature) = ss := by
  induction ss with
  | nil => rfl
  | cons s ss ih => exact congrArg (s :: ·) ih

/-- The budget that a value asks for; the absent value asks for none. -/
def RoundBudget.ofValue : Value → Except Fault (Option RoundBudget)
  | .none => .ok none
  | v => do
    match RoundBudget.ofInt? (← v.integer) with
    | some budget => return some budget
    | none => throw .noRounds

/-- Why a single signature could not be decomposed, as a fault. -/
def Fault.ofSolver : SolverError → Fault
  | .arity mismatch => .arity mismatch
  | e => .solver e

/-- A solver with its implementations taken as values. -/
def Solver.toLoose (solver : Solver) : LooseSolver :=
  ⟨solver.implementations.map .signature, solver.budget, solver.strict, solver.rounds⟩

/-- An outcome with its error taken as a fault. -/
def Outcome.toLoose (outcome : Outcome) : LooseOutcome :=
  ⟨outcome.result.mapError Fault.ofSolver, outcome.rounds, outcome.events⟩

namespace LooseSolver

/-- The solver that some values ask for. The implementations are listed before
the number of rounds is examined. -/
def ofValues (implementations rounds strict : Value) : Except Fault LooseSolver := do
  let implementations ← implementations.items
  let budget ← RoundBudget.ofValue rounds
  return { implementations, budget, strict := strict.truth }

/-- The solver with the implementations in front of the first value that is
no signature. -/
def leading (solver : LooseSolver) : Solver :=
  ⟨leadingSignatures solver.implementations, solver.budget, solver.strict, solver.rounds⟩

/-- Whether all implementations are signatures. -/
def isProper (solver : LooseSolver) : Bool :=
  solver.leading.implementations.length == solver.implementations.length

/-- An analysis that ends with a fault before its first round. -/
def refuse (fault : Fault) (rounds : Nat) : LooseOutcome := ⟨.error fault, rounds, []⟩

/-- Find the parts of an interface that no implementation accepts. -/
def solve (solver : LooseSolver) (interface : Value) : LooseOutcome :=
  match interface.asSignature? with
  | some s =>
    if !solver.isProper && (solver.leading.mismatch? s).isNone then
      refuse .noOperation solver.rounds
    else (solver.leading.solve s).toLoose
  | none => refuse .noOperation (if solver.implementations.isEmpty then 0 else solver.rounds)

/-- The signatures among visited values, all of which have to be keys. -/
def visitedSignatures (visited : Value) : Except Fault SignatureSet := do
  return .ofList (leadingSignatures ((← visited.distinctItems).filter fun v =>
    v.asSignature?.isSome))

/-- Hold a value against the implementations. One that is no signature is
covered by an equal first implementation, and otherwise there must be none. -/
def step (solver : LooseSolver) (visited s : Value) : Except Fault Verdict := do
  let visited ← visitedSignatures visited
  match s.asSignature?, solver.implementations with
  | some s, _ =>
    let verdict ← (solver.leading.step visited s).mapError Fault.ofSolver
    if solver.isProper || verdict.isComplete then return verdict else throw .noOperation
  | none, [] => return .pending ∅
  | none, i :: _ => if s.equals i then return .covered else throw .noOperation

/-- All implementations of a solver are in front of the first value that is no
signature. -/
theorem leading_toLoose (solver : Solver) : solver.toLoose.leading = solver := by
  rw [leading, Solver.toLoose, leadingSignatures_map]

/-- All implementations of a solver are signatures. -/
theorem isProper_toLoose (solver : Solver) : solver.toLoose.isProper = true := by
  rw [isProper, leading_toLoose, Solver.toLoose, List.length_map]
  exact beq_self_eq_true _

/-- The analysis of a signature against signatures is that of the solver. -/
theorem solve_signature (solver : Solver) (s : Signature) :
    solver.toLoose.solve (.signature s) = (solver.solve s).toLoose := by
  have hs : (Value.signature s).asSignature? = some s := rfl
  rw [solve, hs]
  dsimp only
  rw [isProper_toLoose, leading_toLoose]
  rfl

/-- Visited values that are signatures are visited as signatures. -/
theorem visitedSignatures_signatures {visited : Value} {ss : List Signature}
    (h : visited.items? = some (ss.map .signature)) :
    visitedSignatures visited = .ok (.ofList ss) := by
  obtain ⟨kept, hkept, hmem⟩ := Value.exists_distinctItems_signatures h
  have hall : (kept.map Value.signature).filter (fun v => v.asSignature?.isSome) =
      kept.map .signature := List.filter_eq_self.2 fun v hv => by
    obtain ⟨s, _, rfl⟩ := List.mem_map.1 hv
    rfl
  have hsame : Ascending.ofList kept = .ofList ss :=
    Ascending.ext_mem fun s => by rw [Ascending.mem_ofList, Ascending.mem_ofList, hmem]
  rw [visitedSignatures, hkept]
  dsimp only [bind, Except.bind]
  rw [hall, leadingSignatures_map, hsame]
  rfl

/-- Holding a signature against signatures is a step of the solver. -/
theorem step_signature {visited : Value} {ss : List Signature}
    (h : visited.items? = some (ss.map .signature)) (solver : Solver) (s : Signature) :
    solver.toLoose.step visited (.signature s) =
      (solver.step (.ofList ss) s).mapError Fault.ofSolver := by
  have hs : (Value.signature s).asSignature? = some s := rfl
  rw [step, visitedSignatures_signatures h, hs]
  dsimp only [bind, Except.bind]
  rw [isProper_toLoose, leading_toLoose]
  cases (solver.step (.ofList ss) s).mapError Fault.ofSolver with
  | error fault => rfl
  | ok verdict => rfl

/-- The solver after an analysis, which shows its number of rounds. -/
def after (solver : LooseSolver) (outcome : LooseOutcome) : LooseSolver :=
  { solver with rounds := outcome.rounds }

end LooseSolver

namespace Value

/-- The text that reports an uninhabited residual, given by values of any
kind. -/
def residualText (s implementation residual : Value) : String :=
  DispatchCoverage.residualText s.toText implementation.toText residual.toText

/-- The text that reports that a budget was used up, given by values of any
kind. The leaves and the frontier are sets of keys. -/
def budgetText (interface rounds leaves frontier : Value) : Except Fault String := do
  let _ ← leaves.distinctItems
  let pending ← frontier.distinctItems
  return DispatchCoverage.budgetText interface.toText rounds.toText (rounds.equals (int 1))
    pending.length

end Value

end DispatchCoverage

import DispatchCoverage.Proofs.StepVerdict

/-!
# Rounds of an analysis

One round never fails when all arities agree, and its result is described by
membership alone: which signatures are new on the frontier, which were visited
and which are leaves. The states between two rounds form a single chain, and
every analysis ends at one of them, either because its frontier is empty or
because the budget is used up exactly there.
-/

namespace DispatchCoverage

/-- The state after one round, described by its members. -/
structure IsRound (implementations : List Signature) (p next : Progress) : Prop where
  /-- One more round is counted. -/
  rounds : next.rounds = p.rounds + 1
  /-- The new frontier holds the fresh residuals of what was not settled. -/
  mem_frontier : ∀ t, t ∈ next.frontier ↔ t ∉ p.visited ∧
    ∃ s ∈ p.frontier, ¬ IsSettled implementations p.visited s ∧ IsResidual implementations s t
  /-- The new frontier counts as visited. -/
  mem_visited : ∀ t, t ∈ next.visited ↔ t ∈ next.frontier ∨ t ∈ p.visited
  /-- The unmatched signatures of the frontier become leaves. -/
  mem_leaves : ∀ t, t ∈ next.leaves ↔ t ∈ p.leaves ∨
    (t ∈ p.frontier ∧ IsUnmatched implementations t)

/-- A state has one state after the next round. -/
theorem IsRound.unique {implementations : List Signature} {p next other : Progress}
    (h : IsRound implementations p next) (h' : IsRound implementations p other) :
    next = other := by
  have hfrontier : next.frontier = other.frontier :=
    Ascending.ext_mem fun t => by rw [h.mem_frontier, h'.mem_frontier]
  have hvisited : next.visited = other.visited :=
    Ascending.ext_mem fun t => by rw [h.mem_visited, h'.mem_visited, hfrontier]
  have hleaves : next.leaves = other.leaves :=
    Ascending.ext_mem fun t => by rw [h.mem_leaves, h'.mem_leaves]
  have hrounds : next.rounds = other.rounds := by rw [h.rounds, h'.rounds]
  cases next
  cases other
  cases hfrontier
  cases hvisited
  cases hleaves
  cases hrounds
  rfl

namespace Sweep

variable {pass : Sweep} {s t : Signature} {successors : SignatureSet}

/-- What remains of a signature is gathered for the next round. -/
theorem mem_successors_add_pending :
    t ∈ (pass.add s (.pending successors)).successors ↔
      t ∈ successors ∨ t ∈ pass.successors := by
  rw [add]
  by_cases he : successors.isEmpty = true
  · have hnone : t ∉ successors := by
      rw [Ascending.isEmpty_iff.1 he]
      exact Ascending.not_mem_empty t
    rw [if_pos he]
    exact (or_iff_right hnone).symm
  · rw [if_neg he]
    exact Ascending.mem_union

/-- A signature of which nothing remains becomes a leaf. -/
theorem mem_leaves_add_pending :
    t ∈ (pass.add s (.pending successors)).leaves ↔
      t ∈ pass.leaves ∨ (t = s ∧ successors.isEmpty = true) := by
  rw [add]
  by_cases he : successors.isEmpty = true
  · rw [if_pos he, Ascending.mem_insert, and_iff_left he]
    exact or_comm
  · rw [if_neg he]
    exact (or_iff_left fun h => he h.2).symm

/-- What remains of a signature is no cause for a warning. -/
theorem events_add_pending : (pass.add s (.pending successors)).events = pass.events := by
  rw [add]
  split <;> rfl

end Sweep

namespace Solver

/-- One signature adds its fresh residuals to a pass unless it is settled, and
itself if it is unmatched. -/
theorem exists_step_add {solver : Solver} {s : Signature}
    (h : ∀ i ∈ solver.implementations, s.arity = i.arity) (visited : SignatureSet)
    (pass : Sweep) :
    ∃ verdict, solver.step visited s = .ok verdict ∧
      (pass.add s verdict).events = pass.events ∧
      (∀ t, t ∈ (pass.add s verdict).successors ↔ t ∈ pass.successors ∨
        (t ∉ visited ∧ ¬ IsSettled solver.implementations visited s ∧
          IsResidual solver.implementations s t)) ∧
      (∀ t, t ∈ (pass.add s verdict).leaves ↔ t ∈ pass.leaves ∨
        (t = s ∧ IsUnmatched solver.implementations s)) := by
  by_cases hs : IsSettled solver.implementations visited s
  · have hresidual : ∀ t, ¬ (t ∉ visited ∧ ¬ IsSettled solver.implementations visited s ∧
        IsResidual solver.implementations s t) := fun t ht => ht.2.1 hs
    have hunmatched : ∀ t, ¬ (t = s ∧ IsUnmatched solver.implementations s) :=
      fun t ht => ht.2.not_isSettled hs
    exact ⟨.covered, step_of_isSettled h hs, rfl, fun t => (or_iff_left (hresidual t)).symm,
      fun t => (or_iff_left (hunmatched t)).symm⟩
  · obtain ⟨successors, hok, hmem⟩ := step_of_not_isSettled h hs
    refine ⟨.pending successors, hok, Sweep.events_add_pending, fun t => ?_, fun t => ?_⟩
    · rw [Sweep.mem_successors_add_pending, hmem, and_iff_right hs]
      exact or_comm
    · rw [Sweep.mem_leaves_add_pending, isEmpty_iff_isUnmatched hs hmem]

/-- A pass over signatures of the right arity succeeds; it gathers the fresh
residuals of those that are not settled and the unmatched ones. -/
theorem exists_sweep {solver : Solver} {l : List Signature}
    (h : ∀ s ∈ l, ∀ i ∈ solver.implementations, s.arity = i.arity) (visited : SignatureSet)
    (pass : Sweep) :
    ∃ result, solver.sweep visited l pass = .ok result ∧ result.events = pass.events ∧
      (∀ t, t ∈ result.successors ↔ t ∈ pass.successors ∨ (t ∉ visited ∧ ∃ s ∈ l,
        ¬ IsSettled solver.implementations visited s ∧ IsResidual solver.implementations s t)) ∧
      (∀ t, t ∈ result.leaves ↔ t ∈ pass.leaves ∨
        (t ∈ l ∧ IsUnmatched solver.implementations t)) := by
  induction l generalizing pass with
  | nil => exact ⟨pass, rfl, rfl, fun t => by simp, fun t => by simp⟩
  | cons s rest ih =>
    obtain ⟨verdict, hstep, hevents, hsuccessors, hleaves⟩ :=
      exists_step_add (h s List.mem_cons_self) visited pass
    obtain ⟨result, hok, hev, hsucc, hlv⟩ :=
      ih (fun t ht => h t (List.mem_cons_of_mem _ ht)) (pass.add s verdict)
    refine ⟨result, by rw [sweep, hstep]; exact hok, hev.trans hevents, fun t => ?_, fun t => ?_⟩
    · rw [hsucc, hsuccessors]
      constructor
      · intro h
        rcases h with (hp | ⟨hv, hs, hr⟩) | ⟨hv, u, hu, hr⟩
        · exact .inl hp
        · exact .inr ⟨hv, s, List.mem_cons_self, hs, hr⟩
        · exact .inr ⟨hv, u, List.mem_cons_of_mem _ hu, hr⟩
      · intro h
        rcases h with hp | ⟨hv, u, hu, hr⟩
        · exact .inl (.inl hp)
        · rcases List.mem_cons.1 hu with rfl | hu
          · exact .inl (.inr ⟨hv, hr⟩)
          · exact .inr ⟨hv, u, hu, hr⟩
    · rw [hlv, hleaves]
      constructor
      · intro h
        rcases h with (hp | ⟨rfl, hu⟩) | ⟨ht, hu⟩
        · exact .inl hp
        · exact .inr ⟨List.mem_cons_self, hu⟩
        · exact .inr ⟨List.mem_cons_of_mem _ ht, hu⟩
      · intro h
        rcases h with hp | ⟨ht, hu⟩
        · exact .inl (.inl hp)
        · rcases List.mem_cons.1 ht with rfl | ht
          · exact .inl (.inr ⟨rfl, hu⟩)
          · exact .inr ⟨ht, hu⟩

/-- A pass that succeeds makes one step for every signature, in order. -/
theorem steps_of_sweep {solver : Solver} {visited : SignatureSet} {l : List Signature}
    {pass result : Sweep} (h : solver.sweep visited l pass = .ok result) :
    result.steps = pass.steps ++ l := by
  induction l generalizing pass with
  | nil =>
    cases h
    exact (List.append_nil _).symm
  | cons s rest ih =>
    rw [sweep] at h
    split at h
    · cases h
    · rw [ih h, Sweep.steps_add, List.append_assoc, List.singleton_append]

/-- A round that succeeds makes one step for every signature of the frontier. -/
theorem steps_of_advance {solver : Solver} {p : Progress} {round : Round}
    (h : solver.advance p = .ok round) : round.steps = p.frontier.toList := by
  unfold advance at h
  split at h
  · cases h
  · rename_i pass hpass
    cases h
    exact steps_of_sweep hpass

/-- A round over signatures of the right arity succeeds without a warning, with
one step for every signature of the frontier. -/
theorem exists_advance {solver : Solver} {p : Progress}
    (h : ∀ s ∈ p.frontier, ∀ i ∈ solver.implementations, s.arity = i.arity) :
    ∃ next, solver.advance p = .ok ⟨next, [], p.frontier.toList⟩ ∧
      IsRound solver.implementations p next := by
  obtain ⟨result, hok, hevents, hsuccessors, hleaves⟩ :=
    exists_sweep h p.visited ⟨∅, p.leaves, [], []⟩
  have hsucc : ∀ t, t ∈ result.successors ↔ t ∉ p.visited ∧ ∃ s ∈ p.frontier,
      ¬ IsSettled solver.implementations p.visited s ∧
        IsResidual solver.implementations s t := by
    intro t
    rw [hsuccessors]
    exact or_iff_right (Ascending.not_mem_empty t)
  have hfrontier : ∀ t, t ∈ result.successors.diff p.visited ↔ t ∈ result.successors := by
    intro t
    rw [Ascending.mem_diff]
    exact and_iff_left_of_imp fun ht => ((hsucc t).1 ht).1
  refine ⟨⟨p.rounds + 1, result.successors.diff p.visited, result.successors.union p.visited,
    result.leaves⟩, ?_, rfl, fun t => (hfrontier t).trans (hsucc t), fun t => ?_, hleaves⟩
  · rw [advance, hok]
    dsimp only
    rw [hevents, steps_of_sweep hok, List.nil_append]
  · rw [Ascending.mem_union]
    exact or_congr_left (hfrontier t).symm

end Solver

end DispatchCoverage

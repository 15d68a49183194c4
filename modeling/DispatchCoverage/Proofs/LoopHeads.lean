import Mathlib.Data.List.Chain
import Mathlib.Data.List.Nodup
import DispatchCoverage.Proofs.Truncation

/-!
# What holds at the head of the loop

At every head of the loop of rounds, the visited signatures are those of the
frontiers so far, and no two frontiers have a signature in common. Every
signature of a completed round was held against the implementations once, in
one step, and no other was. The leaves are the signatures of completed rounds
that no implementation overlaps. An analysis keeps its rounds, each with a note
of its steps, and the heads of its loop are read off from there.
-/

namespace DispatchCoverage

/-- An analysis at the head of its loop of rounds, with what went before. -/
structure LoopHead where
  /-- Where the analysis stands. -/
  state : Progress
  /-- The frontiers of the completed rounds, in order. -/
  completed : List SignatureSet
  /-- The signatures of the steps so far, one for each step, in order. -/
  steps : List Signature

namespace LoopHead

/-- The head before the first round of an analysis. -/
def start (interface : Signature) : LoopHead := ⟨Solver.start interface, [], []⟩

/-- The frontiers of all rounds, with the one that comes next. -/
def frontiers (head : LoopHead) : List SignatureSet := head.completed ++ [head.state.frontier]

/-- The head after one more round. -/
def next (head : LoopHead) (round : Round) : LoopHead :=
  ⟨round.next, head.frontiers, head.steps ++ round.steps⟩

/-- Whether a signature was on the frontier of a completed round. -/
def IsProcessed (head : LoopHead) (s : Signature) : Prop := ∃ f ∈ head.completed, s ∈ f

/-- A round leads to its state. -/
theorem state_next (head : LoopHead) (round : Round) : (head.next round).state = round.next := rfl

/-- After some rounds an analysis stands where the last of them led. -/
theorem state_foldl_next (head : LoopHead) (rounds : List Round) :
    (rounds.foldl next head).state = rounds.foldl (fun _ round => round.next) head.state := by
  induction rounds generalizing head with
  | nil => rfl
  | cons round rounds ih => exact ih (head.next round)

end LoopHead

namespace Solver

/-- The heads of the loop that an analysis passes from a head on, one more
after every round that it carries out. -/
def headsFrom (solver : Solver) (interface : Signature) (head : LoopHead) : List LoopHead :=
  (solver.course interface head.state).history.scanl LoopHead.next head

/-- The heads of the loop that the analysis of an interface passes, in
order. -/
def heads (solver : Solver) (interface : Signature) : List LoopHead :=
  solver.headsFrom interface (LoopHead.start interface)

/-- One round leads from a head of the loop to the next: something was left to
check, and the budget allowed the round. -/
inductive LeadsTo (solver : Solver) (head : LoopHead) : LoopHead → Prop
  /-- The round that the analysis carries out. -/
  | round {round : Round} (hne : head.state.frontier.isEmpty = false)
      (hallowed : solver.isExhausted head.state.rounds = false)
      (hadvance : solver.advance head.state = .ok round) : LeadsTo solver head (head.next round)

/-- The heads of the loop that rounds lead to from the start. -/
inductive ComesTo (solver : Solver) (interface : Signature) : LoopHead → Prop
  /-- The head before the first round. -/
  | start : ComesTo solver interface (LoopHead.start interface)
  /-- The head after one more round. -/
  | next {head later : LoopHead} : ComesTo solver interface head → solver.LeadsTo head later →
      ComesTo solver interface later

/-- One round leads from each head that an analysis passes to the next. -/
theorem isChain_headsFrom (solver : Solver) (interface : Signature) (head : LoopHead) :
    (solver.headsFrom interface head).IsChain solver.LeadsTo := by
  rw [headsFrom]
  generalize hp : head.state = p
  fun_induction course solver interface p generalizing head with
  | case1 p hempty => exact List.isChain_singleton head
  | case2 p hne hx => exact List.isChain_singleton head
  | case3 p hne hx start e he => exact List.isChain_singleton head
  | case4 p hne hx start round hadvance rest ih =>
    subst hp
    rw [List.scanl_cons]
    refine List.IsChain.cons (ih (head.next round) rfl) fun later hlater => ?_
    rw [List.head?_scanl, Option.mem_some_iff] at hlater
    rw [← hlater]
    exact .round (Bool.eq_false_iff.2 hne) (Bool.eq_false_iff.2 hx) hadvance

/-- The heads that the analysis of an interface passes are those that rounds
lead to. -/
theorem comesTo_of_mem_heads {solver : Solver} {interface : Signature} {head : LoopHead}
    (h : head ∈ solver.heads interface) : solver.ComesTo interface head := by
  refine (solver.isChain_headsFrom interface _).induction (solver.ComesTo interface) _
    (fun _ _ hleads hcomes => hcomes.next hleads) (fun hne => ?_) head h
  have hfirst : (solver.headsFrom interface (LoopHead.start interface)).head hne =
      LoopHead.start interface := List.head_scanl hne
  rw [hfirst]
  exact .start

/-- The last head that an analysis passes is where it stands after its last
round. -/
theorem exists_getLast?_heads (solver : Solver) (interface : Signature) :
    ∃ last, (solver.heads interface).getLast? = some last ∧
      last.state = solver.final interface (Solver.start interface) :=
  ⟨_, List.getLast?_scanl, LoopHead.state_foldl_next _ _⟩

end Solver

/-- What holds at a head of the loop. -/
structure LoopHead.Invariant (head : LoopHead) (implementations : List Signature)
    (interface : Signature) : Prop where
  /-- There is one completed frontier for every round. -/
  length_completed : head.completed.length = head.state.rounds
  /-- The visited signatures are those of the frontiers. -/
  mem_visited : ∀ s, s ∈ head.state.visited ↔ ∃ f ∈ head.frontiers, s ∈ f
  /-- No two frontiers have a signature in common. -/
  disjoint : head.frontiers.Pairwise fun f g => ∀ s ∈ f, s ∉ g
  /-- What was processed was held against the implementations exactly once. -/
  count_steps : ∀ s, head.IsProcessed s → head.steps.count s = 1
  /-- Nothing else was held against them. -/
  isProcessed_of_mem_steps : ∀ s ∈ head.steps, head.IsProcessed s
  /-- What was visited is inhabited and within the interface. -/
  isInhabited_within : ∀ s ∈ head.state.visited, s.isInhabited = true ∧ s.Within interface
  /-- The leaves are what was processed and overlaps no implementation. -/
  mem_leaves : ∀ s, s ∈ head.state.leaves ↔
    head.IsProcessed s ∧ ∀ i ∈ implementations, s.overlaps i = .ok false

/-- A signature of the frontiers was processed or waits. -/
theorem LoopHead.exists_mem_frontiers {head : LoopHead} {s : Signature} :
    (∃ f ∈ head.frontiers, s ∈ f) ↔ head.IsProcessed s ∨ s ∈ head.state.frontier := by
  rw [frontiers, IsProcessed]
  simp only [List.mem_append, List.mem_singleton, or_and_right, exists_or, exists_eq_left]

/-- A round adds the signatures that waited to what was processed. -/
theorem LoopHead.isProcessed_next {head : LoopHead} {round : Round} {s : Signature} :
    (head.next round).IsProcessed s ↔ head.IsProcessed s ∨ s ∈ head.state.frontier :=
  exists_mem_frontiers

/-- Nothing was processed before the first round. -/
theorem LoopHead.not_isProcessed_start {interface s : Signature} :
    ¬ (start interface).IsProcessed s := by
  intro hs
  obtain ⟨f, hf, _⟩ := hs
  cases hf

namespace Solver.ComesTo

variable {solver : Solver} {interface : Signature} {head : LoopHead}

/-- Each completed round has its frontier, and counts as one. -/
theorem length_completed (h : solver.ComesTo interface head) :
    head.completed.length = head.state.rounds := by
  induction h with
  | start => rfl
  | next h hleads ih =>
    obtain ⟨_, _, hadvance⟩ := hleads
    rw [LoopHead.next, LoopHead.frontiers, List.length_append, List.length_singleton, ih,
      rounds_of_advance hadvance]

/-- The steps are about what was processed. -/
theorem mem_steps (h : solver.ComesTo interface head) (s : Signature) :
    s ∈ head.steps ↔ head.IsProcessed s := by
  induction h with
  | start => exact iff_of_false List.not_mem_nil LoopHead.not_isProcessed_start
  | next h hleads ih =>
    obtain ⟨_, _, hadvance⟩ := hleads
    rw [LoopHead.isProcessed_next, ← ih, LoopHead.next, List.mem_append,
      steps_of_advance hadvance]
    rfl

variable (harity : ∀ i ∈ solver.implementations, i.arity = interface.arity)
include harity

/-- The state at a head of the loop is a reached one. -/
theorem reached (h : solver.ComesTo interface head) :
    Reached solver.implementations interface head.state := by
  induction h with
  | start => exact .start
  | next _ hleads ih =>
    obtain ⟨hne, _, hadvance⟩ := hleads
    exact .round ih hne (ih.isRound_of_advance harity hadvance)

/-- A round at a head of the loop is described by its members. -/
theorem isRound (h : solver.ComesTo interface head) {round : Round}
    (hadvance : solver.advance head.state = .ok round) :
    IsRound solver.implementations head.state round.next :=
  (h.reached harity).isRound_of_advance harity hadvance

/-- The visited signatures were processed or wait. -/
theorem mem_visited (h : solver.ComesTo interface head) (s : Signature) :
    s ∈ head.state.visited ↔ ∃ f ∈ head.frontiers, s ∈ f := by
  induction h with
  | start =>
    rw [LoopHead.exists_mem_frontiers, or_iff_right LoopHead.not_isProcessed_start]
    exact mem_visited_start.trans mem_frontier_start.symm
  | next h hleads ih =>
    obtain ⟨_, _, hadvance⟩ := hleads
    rw [LoopHead.exists_mem_frontiers, LoopHead.isProcessed_next, LoopHead.state_next,
      (h.isRound harity hadvance).mem_visited, ih, LoopHead.exists_mem_frontiers]
    exact or_comm

/-- The frontiers of different rounds are disjoint: what a round adds was not
visited before. -/
theorem pairwise_frontiers (h : solver.ComesTo interface head) :
    head.frontiers.Pairwise fun f g => ∀ s ∈ f, s ∉ g := by
  induction h with
  | start => exact List.pairwise_singleton _ _
  | next h hleads ih =>
    obtain ⟨_, _, hadvance⟩ := hleads
    refine List.pairwise_append.2 ⟨ih, List.pairwise_singleton _ _, fun f hf g hg s hs hnew => ?_⟩
    rw [List.mem_singleton.1 hg] at hnew
    have hfresh := (((h.isRound harity hadvance).mem_frontier s).1 hnew).1
    exact hfresh ((h.mem_visited harity s).2 ⟨f, hf, hs⟩)

/-- What was processed does not wait. -/
theorem not_mem_frontier (h : solver.ComesTo interface head) {s : Signature}
    (hs : head.IsProcessed s) : s ∉ head.state.frontier := by
  obtain ⟨f, hf, hsf⟩ := hs
  have hpairs := (List.pairwise_append.1 (h.pairwise_frontiers harity)).2.2
  exact hpairs f hf _ (List.mem_singleton.2 rfl) s hsf

/-- No two steps are about one signature: within a round a frontier lists its
members once, and what was processed does not come back. -/
theorem nodup_steps (h : solver.ComesTo interface head) : head.steps.Nodup := by
  induction h with
  | start => exact List.nodup_nil
  | @next head _ h hleads ih =>
    obtain ⟨_, _, hadvance⟩ := hleads
    rw [LoopHead.next, steps_of_advance hadvance]
    refine List.nodup_append.2 ⟨ih, head.state.frontier.nodup_toList, fun s hs t ht heq => ?_⟩
    rw [← heq] at ht
    exact h.not_mem_frontier harity ((h.mem_steps s).1 hs) ht

/-- The leaves are the unmatched signatures that were processed. -/
theorem mem_leaves (h : solver.ComesTo interface head) (s : Signature) :
    s ∈ head.state.leaves ↔ head.IsProcessed s ∧ IsUnmatched solver.implementations s := by
  induction h with
  | start =>
    exact iff_of_false (Ascending.not_mem_empty s) fun hs => LoopHead.not_isProcessed_start hs.1
  | next h hleads ih =>
    obtain ⟨_, _, hadvance⟩ := hleads
    rw [LoopHead.state_next, (h.isRound harity hadvance).mem_leaves, ih, ← or_and_right,
      LoopHead.isProcessed_next]

/-- The invariant of the loop holds at each of its heads. -/
theorem invariant (h : solver.ComesTo interface head) (hinhabited : interface.isInhabited = true) :
    head.Invariant solver.implementations interface where
  length_completed := h.length_completed
  mem_visited := h.mem_visited harity
  disjoint := h.pairwise_frontiers harity
  count_steps s hs := List.count_eq_one_of_mem (h.nodup_steps harity) ((h.mem_steps s).2 hs)
  isProcessed_of_mem_steps s hs := (h.mem_steps s).1 hs
  isInhabited_within s hs :=
    ⟨(h.reached harity).isInhabited harity hinhabited hs, (h.reached harity).within harity hs⟩
  mem_leaves s := by
    rw [h.mem_leaves harity]
    refine and_congr_right fun hs => ?_
    have hvisited : s ∈ head.state.visited :=
      (h.mem_visited harity s).2 (LoopHead.exists_mem_frontiers.2 (.inl hs))
    rw [isUnmatched_iff ((h.reached harity).isInhabited harity hinhabited hvisited)]
    refine forall_congr' fun i => forall_congr' fun hi => ?_
    rw [Signature.overlaps_eq_ok_iff]
    exact (and_iff_right ((h.reached harity).arity_eq harity hvisited hi)).symm

end Solver.ComesTo

namespace Solver

variable {solver : Solver} {interface : Signature}
  (harity : ∀ i ∈ solver.implementations, i.arity = interface.arity)
include harity

/-- The analysis of an inhabited interface ends at the last head that it
passes. -/
theorem exists_last_endsAt (hinhabited : interface.isInhabited = true) :
    ∃ last, (solver.heads interface).getLast? = some last ∧
      EndsAt solver interface last.state (solver.solve interface) := by
  obtain ⟨last, hlast, hstate⟩ := solver.exists_getLast?_heads interface
  refine ⟨last, hlast, ?_⟩
  rw [hstate, solve_eq_explore harity hinhabited]
  exact (endsAt_final harity .start fun budget _ => Nat.zero_le budget.limit).2

/-- The analysis carries out its rounds from the start on, and every one of
them leads from one head of the loop to the next, up to the head at which the
analysis ends. At every head the visited signatures are those of the frontiers,
of which no two have a signature in common. Every signature of a completed
round was held against the implementations exactly once, and no other was. All
visited signatures are inhabited and within the interface, and the leaves are
those of the completed rounds that no implementation overlaps. -/
theorem solve_loop_invariant (hinhabited : interface.isInhabited = true) :
    solver.solve interface = (solver.course interface (start interface)).outcome ∧
      (solver.heads interface).IsChain solver.LeadsTo ∧
      (∀ head ∈ solver.heads interface, head.Invariant solver.implementations interface) ∧
      ∃ last, (solver.heads interface).getLast? = some last ∧
        EndsAt solver interface last.state (solver.solve interface) :=
  ⟨solve_eq_explore harity hinhabited, solver.isChain_headsFrom interface _,
    fun _ h => (comesTo_of_mem_heads h).invariant harity hinhabited,
    exists_last_endsAt harity hinhabited⟩

omit harity in
/-- The analysis of the square ends at a head of the loop where the corner of A
and Y, which is one of the leaves, was held against the implementations exactly
once. -/
theorem solve_loop_invariant_square :
    (∀ i ∈ (corners none).implementations, i.arity = square.arity) ∧
      square.isInhabited = true ∧
      ∃ last ∈ (corners none).heads square,
        ((corners none).solve square).result = .ok last.state.leaves ∧
        last.steps.count (.ofLetters [['A'], ['Y']]) = 1 := by
  have harity : ∀ i ∈ (corners none).implementations, i.arity = square.arity := by decide
  have hinhabited : square.isInhabited = true := by decide +kernel
  obtain ⟨_, _, hinvariant, last, hlast, hends⟩ := solve_loop_invariant harity hinhabited
  have hmem : last ∈ (corners none).heads square := List.mem_of_getLast? hlast
  have hresult : ((corners none).solve square).result = .ok (.ofList
      [.ofLetters [['A'], ['Y']], .ofLetters [['B'], ['X']]]) := by decide +kernel
  refine ⟨harity, hinhabited, last, hmem, ?_⟩
  cases hends with
  | finished _ hleaves _ =>
    refine ⟨hleaves, (hinvariant last hmem).count_steps _ ?_⟩
    rw [hresult] at hleaves
    refine ((hinvariant last hmem).mem_leaves _).1 ?_ |>.1
    rw [← Except.ok.inj hleaves, Ascending.mem_ofList]
    exact List.mem_cons_self
  | abandoned budget hbudget _ _ _ _ => cases hbudget

end Solver

end DispatchCoverage

import Mathlib.Data.List.Nodup
import Mathlib.Data.Set.Function
import DispatchCoverage.Proofs.Accounting

/-!
# Symmetries of an analysis

A symmetry maps signatures to signatures such that arities, overlaps and
residuals are preserved and nothing in its domain is identified. An analysis of
the image of an interface, against the images of the implementations, runs in
step with the original one: each round leads from images to images, so the
outcome is the image of the original outcome, with the same count of rounds and
the same events about the images.
-/

namespace DispatchCoverage

namespace Ascending

variable {α β : Type} [Ord α] [Ord β] [Std.TransOrd α] [Std.LawfulEqOrd α] {f : β → α}
  {domain : Set β} {s t : Ascending β}

/-- The image of the empty set is empty. -/
@[simp] theorem map_empty (f : β → α) : (∅ : Ascending β).map f = ∅ := rfl

/-- An image set has a member exactly when the set has one. -/
@[simp] theorem isEmpty_map (f : β → α) (s : Ascending β) : (s.map f).isEmpty = s.isEmpty := by
  rw [Bool.eq_iff_iff, ← not_iff_not, Bool.not_eq_true, Bool.not_eq_true, isEmpty_eq_false_iff,
    isEmpty_eq_false_iff]
  constructor
  · intro h
    obtain ⟨a, ha⟩ := h
    obtain ⟨b, hb, _⟩ := mem_map.1 ha
    exact ⟨b, hb⟩
  · intro h
    obtain ⟨b, hb⟩ := h
    exact ⟨f b, mem_map.2 ⟨b, hb, rfl⟩⟩

/-- Where the map is injective, the image of a value is a member of the image
of a set exactly when the value is a member. -/
theorem map_mem_map_iff (hf : domain.InjOn f) (hs : ∀ b ∈ s, b ∈ domain) {b : β}
    (hb : b ∈ domain) : f b ∈ s.map f ↔ b ∈ s := by
  rw [mem_map]
  constructor
  · intro h
    obtain ⟨c, hc, heq⟩ := h
    exact hf (hs c hc) hb heq ▸ hc
  · intro h
    exact ⟨b, h, rfl⟩

/-- Where the map is injective, image sets determine the sets. -/
theorem map_injOn (hf : domain.InjOn f) [Std.TransOrd β] [Std.LawfulEqOrd β]
    (hs : ∀ b ∈ s, b ∈ domain) (ht : ∀ b ∈ t, b ∈ domain) (h : s.map f = t.map f) : s = t := by
  refine ext_mem fun b => ⟨fun hb => ?_, fun hb => ?_⟩
  · rw [← map_mem_map_iff hf ht (hs b hb), ← h]
    exact mem_map.2 ⟨b, hb, rfl⟩
  · rw [← map_mem_map_iff hf hs (ht b hb), h]
    exact mem_map.2 ⟨b, hb, rfl⟩

/-- Where the map is injective, an image set has as many members as the set. -/
theorem size_map (hf : domain.InjOn f) [Std.LawfulEqOrd β] (hs : ∀ b ∈ s, b ∈ domain) :
    (s.map f).size = s.size := by
  have hnodup : (s.toList.map f).Nodup :=
    List.Nodup.map_on (fun b hb c hc heq => hf (hs b hb) (hs c hc) heq) s.nodup_toList
  have hperm : (s.map f).toList.Perm (s.toList.map f) :=
    (List.perm_ext_iff_of_nodup (s.map f).nodup_toList hnodup).2 fun _ => mem_ofList
  rw [size, hperm.length_eq, List.length_map, size]

section Operations

variable [Std.LawfulEqOrd β] (hf : domain.InjOn f) (hs : ∀ b ∈ s, b ∈ domain)
  (ht : ∀ b ∈ t, b ∈ domain)
include hf hs ht

/-- The image of an intersection is the intersection of the images. -/
theorem map_inter : (s.inter t).map f = (s.map f).inter (t.map f) := by
  refine ext_mem fun b => ?_
  constructor
  · intro h
    obtain ⟨a, ha, rfl⟩ := mem_map.1 h
    obtain ⟨has, hat⟩ := mem_inter.1 ha
    exact mem_inter.2 ⟨mem_map.2 ⟨a, has, rfl⟩, mem_map.2 ⟨a, hat, rfl⟩⟩
  · intro h
    obtain ⟨hb, hbt⟩ := mem_inter.1 h
    obtain ⟨a, has, rfl⟩ := mem_map.1 hb
    have hat : a ∈ t := (map_mem_map_iff hf ht (hs a has)).1 hbt
    exact mem_map.2 ⟨a, mem_inter.2 ⟨has, hat⟩, rfl⟩

/-- The image of a difference is the difference of the images. -/
theorem map_diff : (s.diff t).map f = (s.map f).diff (t.map f) := by
  refine ext_mem fun b => ?_
  constructor
  · intro h
    obtain ⟨a, ha, rfl⟩ := mem_map.1 h
    obtain ⟨has, hat⟩ := mem_diff.1 ha
    have hbt : f a ∉ t.map f := fun hb => hat ((map_mem_map_iff hf ht (hs a has)).1 hb)
    exact mem_diff.2 ⟨mem_map.2 ⟨a, has, rfl⟩, hbt⟩
  · intro h
    obtain ⟨hb, hbt⟩ := mem_diff.1 h
    obtain ⟨a, has, rfl⟩ := mem_map.1 hb
    have hat : a ∉ t := fun hat => hbt (mem_map.2 ⟨a, hat, rfl⟩)
    exact mem_map.2 ⟨a, mem_diff.2 ⟨has, hat⟩, rfl⟩

/-- Images meet exactly when the sets do. -/
theorem meets_map : (s.map f).meets (t.map f) = s.meets t := by
  rw [meets_eq_not_isEmpty_inter, meets_eq_not_isEmpty_inter, ← map_inter hf hs ht, isEmpty_map]

end Operations

end Ascending

/-- A map of signatures that an analysis cannot tell from the identity, on a
domain that is closed under residuals. -/
structure IsSymmetry (domain : Set Signature) (g : Signature → Signature) : Prop where
  /-- No two signatures are identified. -/
  injOn : domain.InjOn g
  /-- The number of parameters stays the same. -/
  arity_eq : ∀ s ∈ domain, (g s).arity = s.arity
  /-- Signatures overlap exactly when their images do. -/
  meets_eq : ∀ s ∈ domain, ∀ i ∈ domain, (g s).meets (g i) = s.meets i
  /-- Residuals stay in the domain. -/
  mem_domain : ∀ s ∈ domain, ∀ i ∈ domain, ∀ t ∈ s.residuals i, t ∈ domain
  /-- The residuals of images are the images of residuals. -/
  mem_residuals : ∀ s ∈ domain, ∀ i ∈ domain, ∀ u,
    u ∈ (g s).residuals (g i) ↔ ∃ t ∈ s.residuals i, g t = u

/-- The error about the images of the signatures of an error. -/
def SolverError.map (g : Signature → Signature) : SolverError → SolverError
  | arity mismatch => .arity ⟨g mismatch.left, g mismatch.right⟩
  | uninhabitedResidual s i t => .uninhabitedResidual (g s) (g i) (g t)
  | budgetExceeded interface rounds leaves frontier =>
    .budgetExceeded (g interface) rounds (leaves.map g) (frontier.map g)

/-- The event about the images of the signatures of an event. -/
def Event.map (g : Signature → Signature) : Event → Event
  | round number interface frontier leaves => .round number (g interface) frontier leaves
  | finished interface rounds leaves => .finished (g interface) rounds leaves
  | uninhabited s i t => .uninhabited (g s) (g i) (g t)

/-- The outcome with the images of the signatures of an outcome. -/
def Outcome.map (g : Signature → Signature) (outcome : Outcome) : Outcome where
  result :=
    match outcome.result with
    | .ok leaves => .ok (leaves.map g)
    | .error e => .error (e.map g)
  rounds := outcome.rounds
  events := outcome.events.map (Event.map g)

/-- The state with the images of the signatures of a state. -/
def Progress.map (g : Signature → Signature) (p : Progress) : Progress where
  rounds := p.rounds
  frontier := p.frontier.map g
  visited := p.visited.map g
  leaves := p.leaves.map g

/-- The solver that consults the images of the implementations. -/
def Solver.map (g : Signature → Signature) (solver : Solver) : Solver :=
  { solver with implementations := solver.implementations.map g }

/-- An interface alone on the frontier is mapped to its image alone. -/
theorem Progress.map_start (g : Signature → Signature) (interface : Signature) :
    (Solver.start interface).map g = Solver.start (g interface) := by
  have hsingle : (Ascending.ofList [interface]).map g = Ascending.ofList [g interface] :=
    Ascending.ext_mem fun u => by simp [eq_comm]
  simp only [Progress.map, Solver.start, hsingle, Ascending.map_empty]

namespace IsSymmetry

variable {domain : Set Signature} {g : Signature → Signature} (h : IsSymmetry domain g)

section Step

variable {implementations : List Signature} (himplementations : ∀ i ∈ implementations, i ∈ domain)
  {visited : SignatureSet} (hvisited : ∀ t ∈ visited, t ∈ domain) {s : Signature}
  (hs : s ∈ domain)
include h hs

/-- A symmetry keeps signatures inhabited or void. -/
theorem isInhabited_eq : (g s).isInhabited = s.isInhabited := by
  rw [← Signature.meets_self_eq, h.meets_eq s hs s hs, Signature.meets_self_eq]

include himplementations

/-- The image of an unmatched signature is unmatched, and no other is. -/
theorem isUnmatched_iff :
    IsUnmatched (implementations.map g) (g s) ↔ IsUnmatched implementations s := by
  simp only [IsUnmatched, List.forall_mem_map]
  refine forall_congr' fun i => forall_congr' fun hi => ?_
  rw [h.meets_eq s hs i (himplementations i hi), ne_eq,
    h.injOn.eq_iff hs (himplementations i hi)]

/-- The residuals of an image are the images of the residuals. -/
theorem isResidual_iff {u : Signature} :
    IsResidual (implementations.map g) (g s) u ↔ ∃ t, IsResidual implementations s t ∧ g t = u := by
  constructor
  · intro hr
    obtain ⟨i', hi', hm, hu⟩ := hr
    obtain ⟨i, hi, rfl⟩ := List.mem_map.1 hi'
    rw [h.meets_eq s hs i (himplementations i hi)] at hm
    obtain ⟨t, ht, heq⟩ := (h.mem_residuals s hs i (himplementations i hi) u).1 hu
    exact ⟨t, ⟨i, hi, hm, ht⟩, heq⟩
  · intro hr
    obtain ⟨t, ⟨i, hi, hm, ht⟩, heq⟩ := hr
    refine ⟨g i, List.mem_map.2 ⟨i, hi, rfl⟩, ?_, ?_⟩
    · rw [h.meets_eq s hs i (himplementations i hi), hm]
    · exact (h.mem_residuals s hs i (himplementations i hi) u).2 ⟨t, ht, heq⟩

/-- A residual stays in the domain. -/
theorem mem_domain_of_isResidual {t : Signature} (hr : IsResidual implementations s t) :
    t ∈ domain := by
  obtain ⟨i, hi, _, ht⟩ := hr
  exact h.mem_domain s hs i (himplementations i hi) t ht

include hvisited

/-- The image of a settled signature is settled, and no other is. -/
theorem isSettled_iff :
    IsSettled (implementations.map g) (visited.map g) (g s) ↔
      IsSettled implementations visited s := by
  simp only [IsSettled, List.mem_map, exists_exists_and_eq_and]
  refine exists_congr fun i => and_congr_right fun hi => ?_
  have hdomain : i ∈ domain := himplementations i hi
  rw [Settles, Settles, h.meets_eq s hs i hdomain, h.injOn.eq_iff hs hdomain]
  refine or_congr_right (and_congr_right fun _ => ?_)
  constructor
  · intro hall t ht
    have himage : g t ∈ visited.map g :=
      hall (g t) ((h.mem_residuals s hs i hdomain (g t)).2 ⟨t, ht, rfl⟩)
    exact (Ascending.map_mem_map_iff h.injOn hvisited (h.mem_domain s hs i hdomain t ht)).1 himage
  · intro hall u hu
    obtain ⟨t, ht, rfl⟩ := (h.mem_residuals s hs i hdomain u).1 hu
    exact Ascending.mem_map.2 ⟨t, hall t ht, rfl⟩

end Step

include h

/-- A round leads from the image of a state to the image of the next state. -/
theorem isRound {implementations : List Signature} {p next : Progress}
    (himplementations : ∀ i ∈ implementations, i ∈ domain)
    (hvisited : ∀ t ∈ p.visited, t ∈ domain) (hfrontier : ∀ t ∈ p.frontier, t ∈ p.visited)
    (hround : IsRound implementations p next) :
    IsRound (implementations.map g) (p.map g) (next.map g) where
  rounds := hround.rounds
  mem_frontier u := by
    constructor
    · intro hu
      obtain ⟨t, ht, rfl⟩ := Ascending.mem_map.1 hu
      obtain ⟨hfresh, s, hs, hsettled, hr⟩ := (hround.mem_frontier t).1 ht
      have hdomain : s ∈ domain := hvisited s (hfrontier s hs)
      have ht : t ∈ domain := h.mem_domain_of_isResidual himplementations hdomain hr
      -- Were two residuals identified, a fresh one could look like a visited one.
      refine ⟨fun hmem => hfresh ((Ascending.map_mem_map_iff h.injOn hvisited ht).1 hmem), g s,
        Ascending.mem_map.2 ⟨s, hs, rfl⟩, ?_, ?_⟩
      · exact fun hset => hsettled ((h.isSettled_iff himplementations hvisited hdomain).1 hset)
      · exact (h.isResidual_iff himplementations hdomain).2 ⟨t, hr, rfl⟩
    · intro hu
      obtain ⟨hfresh, s', hs', hsettled, hr⟩ := hu
      obtain ⟨s, hs, rfl⟩ := Ascending.mem_map.1 hs'
      have hdomain : s ∈ domain := hvisited s (hfrontier s hs)
      obtain ⟨t, ht, rfl⟩ := (h.isResidual_iff himplementations hdomain).1 hr
      refine Ascending.mem_map.2 ⟨t, (hround.mem_frontier t).2 ⟨?_, s, hs, ?_, ht⟩, rfl⟩
      · exact fun hmem => hfresh (Ascending.mem_map.2 ⟨t, hmem, rfl⟩)
      · exact fun hset => hsettled ((h.isSettled_iff himplementations hvisited hdomain).2 hset)
  mem_visited u := by
    simp only [Progress.map, Ascending.mem_map, hround.mem_visited, or_and_right, exists_or]
  mem_leaves u := by
    have hleaf : ∀ s ∈ p.frontier, (IsUnmatched (implementations.map g) (g s) ↔
        IsUnmatched implementations s) :=
      fun s hs => h.isUnmatched_iff himplementations (hvisited s (hfrontier s hs))
    simp only [Progress.map, Ascending.mem_map, hround.mem_leaves, or_and_right, exists_or]
    refine or_congr_right ?_
    constructor
    · intro hu
      obtain ⟨s, ⟨hs, hunmatched⟩, rfl⟩ := hu
      exact ⟨⟨s, hs, rfl⟩, (hleaf s hs).2 hunmatched⟩
    · intro hu
      obtain ⟨⟨s, hs, rfl⟩, hunmatched⟩ := hu
      exact ⟨s, ⟨hs, (hleaf s hs).1 hunmatched⟩, rfl⟩

variable {solver : Solver} {interface : Signature}
  (harity : ∀ i ∈ solver.implementations, i.arity = interface.arity)
  (hinterface : interface ∈ domain)
  (himplementations : ∀ i ∈ solver.implementations, i ∈ domain)
include hinterface himplementations

/-- Every visited signature is in the domain. -/
theorem mem_domain_of_reached {p : Progress} (hp : Reached solver.implementations interface p)
    {s : Signature} (hs : s ∈ p.visited) : s ∈ domain :=
  hp.of_mem_visited (· ∈ domain) hinterface
    (fun _ _ hs hr => h.mem_domain_of_isResidual himplementations hs hr) hs

include harity

/-- From the image of a reached state a round leads to the image of the next
one. -/
theorem exists_advance {p : Progress} (hp : Reached solver.implementations interface p) :
    ∃ next, solver.advance p = .ok ⟨next, [], p.frontier.toList⟩ ∧
      IsRound solver.implementations p next ∧
      (solver.map g).advance (p.map g) =
        .ok ⟨next.map g, [], (p.map g).frontier.toList⟩ := by
  have hvisited : ∀ s ∈ p.visited, s ∈ domain :=
    fun s hs => h.mem_domain_of_reached hinterface himplementations hp hs
  obtain ⟨next, hadvance, hround⟩ := hp.exists_advance harity
  have hsame : ∀ s' ∈ (p.map g).frontier, ∀ i' ∈ (solver.map g).implementations,
      s'.arity = i'.arity := by
    intro s' hs' i' hi'
    obtain ⟨s, hs, rfl⟩ := Ascending.mem_map.1 hs'
    obtain ⟨i, hi, rfl⟩ := List.mem_map.1 hi'
    rw [h.arity_eq s (hvisited s (hp.mem_visited hs)), h.arity_eq i (himplementations i hi)]
    exact hp.arity_eq harity (hp.mem_visited hs) hi
  obtain ⟨next', hadvance', hround'⟩ := Solver.exists_advance hsame
  have himage : IsRound (solver.map g).implementations (p.map g) (next.map g) :=
    h.isRound himplementations hvisited (fun _ hs => hp.mem_visited hs) hround
  rw [hround'.unique himage] at hadvance'
  exact ⟨next, hadvance, hround, hadvance'⟩

/-- From the image of a reached state the analysis has the image of the
outcome. -/
theorem explore_map {p : Progress} (hp : Reached solver.implementations interface p) :
    (solver.map g).explore (g interface) (p.map g) = (solver.explore interface p).map g := by
  have hvisited : ∀ s ∈ p.visited, s ∈ domain :=
    fun s hs => h.mem_domain_of_reached hinterface himplementations hp hs
  have hleaves : (p.leaves.map g).size = p.leaves.size :=
    Ascending.size_map h.injOn fun s hs => hvisited s (hp.mem_leaves hs).1
  by_cases hempty : p.frontier.isEmpty = true
  · have hempty' : (p.map g).frontier.isEmpty = true := by
      rw [← hempty]
      exact Ascending.isEmpty_map g p.frontier
    rw [Solver.explore_of_isEmpty hempty, Solver.explore_of_isEmpty hempty']
    simp only [Outcome.map, Progress.map, List.map_cons, List.map_nil, Event.map, hleaves]
  · have hne : p.frontier.isEmpty = false := Bool.eq_false_iff.2 hempty
    have hne' : (p.map g).frontier.isEmpty = false := by
      rw [← hne]
      exact Ascending.isEmpty_map g p.frontier
    by_cases hx : solver.isExhausted p.rounds = true
    · have hx' : (solver.map g).isExhausted (p.map g).rounds = true := hx
      rw [Solver.explore_of_isExhausted hne hx, Solver.explore_of_isExhausted hne' hx']
      rfl
    · have hx' : (solver.map g).isExhausted (p.map g).rounds = false := Bool.eq_false_iff.2 hx
      obtain ⟨next, hadvance, hround, hadvance'⟩ :=
        h.exists_advance harity hinterface himplementations hp
      -- Both runs go on together; the original frontier is what gets smaller.
      have hsmaller := Solver.sizeBound_advance_lt hne hadvance
      have hrest := explore_map (.round hp hne hround)
      have hfrontier : (p.frontier.map g).size = p.frontier.size :=
        Ascending.size_map h.injOn fun s hs => hvisited s (hp.mem_visited hs)
      rw [Solver.explore_of_advance hne (Bool.eq_false_iff.2 hx) hadvance,
        Solver.explore_of_advance hne' hx' hadvance', hrest]
      simp only [Outcome.map, Progress.map, List.map_append, List.map_cons, List.map_nil,
        Event.map, hleaves, hfrontier]
termination_by sizeBound p.frontier.toList

/-- The analysis of an image has the image of the outcome. -/
theorem solve_map : (solver.map g).solve (g interface) = (solver.solve interface).map g := by
  have harity' : ∀ i' ∈ (solver.map g).implementations, i'.arity = (g interface).arity := by
    intro i' hi'
    obtain ⟨i, hi, rfl⟩ := List.mem_map.1 hi'
    rw [h.arity_eq i (himplementations i hi), h.arity_eq interface hinterface]
    exact harity i hi
  have hsame : (g interface).isInhabited = interface.isInhabited := h.isInhabited_eq hinterface
  by_cases hinhabited : interface.isInhabited = true
  · rw [Solver.solve_eq_explore harity hinhabited,
      Solver.solve_eq_explore harity' (hsame.trans hinhabited), ← Progress.map_start]
    exact h.explore_map harity hinterface himplementations .start
  · have hempty : interface.isInhabited = false := Bool.eq_false_iff.2 hinhabited
    rw [Solver.solve_of_not_isInhabited harity hempty,
      Solver.solve_of_not_isInhabited harity' (hsame.trans hempty)]
    rfl

end IsSymmetry

end DispatchCoverage

import DispatchCoverage.Proofs.Deviation
import DispatchCoverage.Solver

/-!
# The verdict of one step

A step goes through the implementations in order and may stop early, but its
verdict does not depend on the order. The signature is covered exactly when
some implementation settles it: one that equals it, or overlaps it and has all
residuals visited before. Otherwise the fresh residuals under all overlapping
implementations remain, and none remain exactly when no implementation matches
the signature at all. The branch for an uninhabited residual is never taken.
-/

namespace DispatchCoverage

/-- Whether an implementation settles a signature, given what was visited
before. -/
def Settles (visited : SignatureSet) (s i : Signature) : Prop :=
  s = i ∨ (s.meets i = true ∧ ∀ t ∈ s.residuals i, t ∈ visited)

/-- Whether some implementation settles a signature. -/
def IsSettled (implementations : List Signature) (visited : SignatureSet) (s : Signature) : Prop :=
  ∃ i ∈ implementations, Settles visited s i

/-- Whether a signature is a residual of another one under some overlapping
implementation. -/
def IsResidual (implementations : List Signature) (s t : Signature) : Prop :=
  ∃ i ∈ implementations, s.meets i = true ∧ t ∈ s.residuals i

/-- A residual has fewer tags than its signature. -/
theorem IsResidual.size_lt {implementations : List Signature} {s t : Signature}
    (h : IsResidual implementations s t) : t.size < s.size := by
  obtain ⟨i, _, hm, ht⟩ := h
  exact Signature.size_residual_lt hm ht

/-- A residual lies within its signature. -/
theorem IsResidual.within {implementations : List Signature} {s t : Signature}
    (harity : ∀ i ∈ implementations, s.arity = i.arity) (h : IsResidual implementations s t) :
    t.Within s := by
  obtain ⟨i, hi, _, ht⟩ := h
  exact Signature.residual_within (harity i hi) ht

/-- A residual is inhabited. -/
theorem IsResidual.isInhabited {implementations : List Signature} {s t : Signature}
    (harity : ∀ i ∈ implementations, s.arity = i.arity) (h : IsResidual implementations s t) :
    t.isInhabited = true := by
  obtain ⟨i, hi, hm, ht⟩ := h
  exact Signature.isInhabited_residual (harity i hi) hm ht

/-- A residual is not the whole signature. -/
theorem IsResidual.ne {implementations : List Signature} {s t : Signature}
    (h : IsResidual implementations s t) : t ≠ s := by
  obtain ⟨i, _, hm, ht⟩ := h
  exact Signature.residual_ne hm ht

/-- Whether no implementation equals or overlaps a signature. -/
def IsUnmatched (implementations : List Signature) (s : Signature) : Prop :=
  ∀ i ∈ implementations, s ≠ i ∧ s.meets i = false

/-- The residuals of a signature under one implementation that were not
visited before. -/
def freshResiduals (visited : SignatureSet) (s i : Signature) : SignatureSet :=
  Ascending.ofList ((s.residuals i).filter (fun t => !visited.contains t))

/-- Fresh residuals are residuals outside of what was visited. -/
theorem mem_freshResiduals {visited : SignatureSet} {s i t : Signature} :
    t ∈ freshResiduals visited s i ↔ t ∈ s.residuals i ∧ t ∉ visited := by
  rw [freshResiduals, Ascending.mem_ofList, List.mem_filter, Bool.not_eq_true',
    ← Bool.not_eq_true, Ascending.contains_iff]

/-- There is no fresh residual exactly when all residuals were visited. -/
theorem isEmpty_freshResiduals {visited : SignatureSet} {s i : Signature} :
    (freshResiduals visited s i).isEmpty = true ↔ ∀ t ∈ s.residuals i, t ∈ visited := by
  rw [Ascending.isEmpty_iff]
  constructor
  · intro h t ht
    by_contra hn
    have hmem := mem_freshResiduals.2 ⟨ht, hn⟩
    rw [h] at hmem
    exact Ascending.not_mem_empty t hmem
  · intro h
    refine Ascending.ext_mem fun t => iff_of_false ?_ (Ascending.not_mem_empty t)
    rw [mem_freshResiduals]
    exact fun ht => ht.2 (h t ht.1)

/-- Under an implementation of the same arity a step goes on or ends as if no
residual were tested for being uninhabited. -/
theorem decomposeFrom_cons {visited collected : SignatureSet} {s i : Signature}
    {rest : List Signature} (h : s.arity = i.arity) :
    decomposeFrom visited s collected (i :: rest) =
      if s = i then .ok .covered
      else if s.meets i = true then
        if (freshResiduals visited s i).isEmpty then .ok .covered
        else decomposeFrom visited s ((freshResiduals visited s i).union collected) rest
      else decomposeFrom visited s collected rest := by
  rw [decomposeFrom, if_neg (not_not_intro h)]
  by_cases hm : s.meets i = true
  · have hfind : (s.residuals i).find? (fun t => !t.isInhabited) = none := by
      refine List.find?_eq_none.2 fun t ht hn => ?_
      rw [Signature.isInhabited_residual h hm ht] at hn
      cases hn
    rw [if_pos hm, if_pos hm, hfind]
    rfl
  · rw [if_neg hm, if_neg hm]

/-- An implementation that settles the signature ends the step. -/
theorem decomposeFrom_cons_of_settles {visited collected : SignatureSet} {s i : Signature}
    {rest : List Signature} (h : s.arity = i.arity) (hi : Settles visited s i) :
    decomposeFrom visited s collected (i :: rest) = .ok .covered := by
  rw [decomposeFrom_cons h]
  by_cases hs : s = i
  · rw [if_pos hs]
  · obtain ⟨hm, hall⟩ := hi.resolve_left hs
    rw [if_neg hs, if_pos hm, if_pos (isEmpty_freshResiduals.2 hall)]

/-- Any other implementation adds its fresh residuals to those collected
before. -/
theorem decomposeFrom_cons_of_not_settles {visited : SignatureSet} {s i : Signature}
    (h : s.arity = i.arity) (hi : ¬ Settles visited s i) (collected : SignatureSet)
    (rest : List Signature) :
    ∃ gathered, decomposeFrom visited s collected (i :: rest) =
        decomposeFrom visited s gathered rest ∧
      ∀ t, t ∈ gathered ↔
        t ∈ collected ∨ (t ∉ visited ∧ s.meets i = true ∧ t ∈ s.residuals i) := by
  have hs : s ≠ i := fun hs => hi (.inl hs)
  rw [decomposeFrom_cons h, if_neg hs]
  by_cases hm : s.meets i = true
  · have hne : ¬ (freshResiduals visited s i).isEmpty = true := fun he =>
      hi (.inr ⟨hm, isEmpty_freshResiduals.1 he⟩)
    refine ⟨(freshResiduals visited s i).union collected, by rw [if_pos hm, if_neg hne],
      fun t => ?_⟩
    rw [Ascending.mem_union, mem_freshResiduals]
    constructor
    · intro h
      rcases h with ⟨ht, hn⟩ | hc
      · exact .inr ⟨hn, hm, ht⟩
      · exact .inl hc
    · intro h
      rcases h with hc | ⟨hn, _, ht⟩
      · exact .inr hc
      · exact .inl ⟨ht, hn⟩
  · refine ⟨collected, by rw [if_neg hm], fun t => ⟨.inl, ?_⟩⟩
    intro h
    rcases h with hc | ⟨_, hm', _⟩
    · exact hc
    · exact absurd hm' hm

/-- A signature that some implementation settles is covered, wherever the
implementation stands. -/
theorem decomposeFrom_of_isSettled {implementations : List Signature}
    {visited collected : SignatureSet} {s : Signature}
    (h : ∀ i ∈ implementations, s.arity = i.arity) (hs : IsSettled implementations visited s) :
    decomposeFrom visited s collected implementations = .ok .covered := by
  induction implementations generalizing collected with
  | nil =>
    obtain ⟨i, hi, _⟩ := hs
    exact absurd hi List.not_mem_nil
  | cons i rest ih =>
    have hi := h i List.mem_cons_self
    have hrest : ∀ j ∈ rest, s.arity = j.arity := fun j hj => h j (List.mem_cons_of_mem _ hj)
    by_cases hsi : Settles visited s i
    · exact decomposeFrom_cons_of_settles hi hsi
    · obtain ⟨gathered, heq, _⟩ := decomposeFrom_cons_of_not_settles hi hsi collected rest
      obtain ⟨j, hj, hsj⟩ := hs
      rw [heq]
      refine ih hrest ⟨j, ?_, hsj⟩
      rcases List.mem_cons.1 hj with rfl | hj
      · exact absurd hsj hsi
      · exact hj

/-- Of a signature that no implementation settles, exactly the fresh residuals
remain, besides what was collected before. -/
theorem decomposeFrom_of_not_isSettled {implementations : List Signature}
    {visited : SignatureSet} {s : Signature} (h : ∀ i ∈ implementations, s.arity = i.arity)
    (hs : ¬ IsSettled implementations visited s) (collected : SignatureSet) :
    ∃ successors, decomposeFrom visited s collected implementations = .ok (.pending successors) ∧
      ∀ t, t ∈ successors ↔ t ∈ collected ∨ (t ∉ visited ∧ IsResidual implementations s t) := by
  induction implementations generalizing collected with
  | nil =>
    refine ⟨collected, rfl, fun t => ⟨.inl, ?_⟩⟩
    intro h
    rcases h with hc | ⟨_, i, hi, _⟩
    · exact hc
    · exact absurd hi List.not_mem_nil
  | cons i rest ih =>
    have hsi : ¬ Settles visited s i := fun hsi => hs ⟨i, List.mem_cons_self, hsi⟩
    have hsr : ¬ IsSettled rest visited s := fun ⟨j, hj, hsj⟩ =>
      hs ⟨j, List.mem_cons_of_mem _ hj, hsj⟩
    obtain ⟨gathered, heq, hgathered⟩ := decomposeFrom_cons_of_not_settles
      (h i List.mem_cons_self) hsi collected rest
    obtain ⟨successors, hok, hmem⟩ := ih
      (fun j hj => h j (List.mem_cons_of_mem _ hj)) hsr gathered
    refine ⟨successors, heq.trans hok, fun t => ?_⟩
    rw [hmem, hgathered]
    constructor
    · intro h
      rcases h with (hc | ⟨hn, hm, ht⟩) | ⟨hn, j, hj, hr⟩
      · exact .inl hc
      · exact .inr ⟨hn, i, List.mem_cons_self, hm, ht⟩
      · exact .inr ⟨hn, j, List.mem_cons_of_mem _ hj, hr⟩
    · intro h
      rcases h with hc | ⟨hn, j, hj, hm, ht⟩
      · exact .inl (.inl hc)
      · rcases List.mem_cons.1 hj with rfl | hj
        · exact .inl (.inr ⟨hn, hm, ht⟩)
        · exact .inr ⟨hn, j, hj, hm, ht⟩

namespace Solver

/-- A step covers a signature that some implementation settles. -/
theorem step_of_isSettled {solver : Solver} {visited : SignatureSet} {s : Signature}
    (h : ∀ i ∈ solver.implementations, s.arity = i.arity)
    (hs : IsSettled solver.implementations visited s) :
    solver.step visited s = .ok .covered := by
  rw [step, decompose, decomposeFrom_of_isSettled h hs]

/-- A step leaves exactly the fresh residuals of a signature that no
implementation settles. -/
theorem step_of_not_isSettled {solver : Solver} {visited : SignatureSet} {s : Signature}
    (h : ∀ i ∈ solver.implementations, s.arity = i.arity)
    (hs : ¬ IsSettled solver.implementations visited s) :
    ∃ successors, solver.step visited s = .ok (.pending successors) ∧
      ∀ t, t ∈ successors ↔ t ∉ visited ∧ IsResidual solver.implementations s t := by
  obtain ⟨successors, hok, hmem⟩ := decomposeFrom_of_not_isSettled h hs ∅
  refine ⟨successors, ?_, fun t => ?_⟩
  · rw [step, decompose, hok]
  · rw [hmem]
    exact or_iff_right (Ascending.not_mem_empty t)

end Solver

/-- An unsettled signature has a fresh residual unless it is unmatched. -/
theorem exists_isResidual_iff {implementations : List Signature} {visited : SignatureSet}
    {s : Signature} (hs : ¬ IsSettled implementations visited s) :
    (∃ t, t ∉ visited ∧ IsResidual implementations s t) ↔ ¬ IsUnmatched implementations s := by
  constructor
  · intro h hu
    obtain ⟨t, _, i, hi, hm, _⟩ := h
    rw [(hu i hi).2] at hm
    cases hm
  · intro hu
    by_contra hn
    refine hu fun i hi => ⟨fun hsi => hs ⟨i, hi, .inl hsi⟩, Bool.eq_false_iff.2 fun hm => ?_⟩
    refine hs ⟨i, hi, .inr ⟨hm, fun t ht => ?_⟩⟩
    by_contra hv
    exact hn ⟨t, hv, i, hi, hm, ht⟩

/-- Nothing remains of an unsettled signature exactly when it is unmatched. -/
theorem isEmpty_iff_isUnmatched {implementations : List Signature}
    {visited successors : SignatureSet} {s : Signature}
    (hs : ¬ IsSettled implementations visited s)
    (hmem : ∀ t, t ∈ successors ↔ t ∉ visited ∧ IsResidual implementations s t) :
    successors.isEmpty = true ↔ IsUnmatched implementations s := by
  have hresidual := exists_isResidual_iff hs
  simp only [← hmem] at hresidual
  rw [← Ascending.isEmpty_eq_false_iff, Bool.eq_false_iff] at hresidual
  exact not_iff_not.1 hresidual

/-- An unmatched signature is not settled. -/
theorem IsUnmatched.not_isSettled {implementations : List Signature} {visited : SignatureSet}
    {s : Signature} (hu : IsUnmatched implementations s) :
    ¬ IsSettled implementations visited s := by
  intro h
  rcases h with ⟨i, hi, hs | ⟨hm, _⟩⟩
  · exact (hu i hi).1 hs
  · rw [(hu i hi).2] at hm
    cases hm

/-- An inhabited signature is settled by an overlapping implementation whose
residuals were visited, which covers the case that the two are equal. -/
theorem isSettled_iff {implementations : List Signature} {visited : SignatureSet} {s : Signature}
    (h : s.isInhabited = true) :
    IsSettled implementations visited s ↔
      ∃ i ∈ implementations, s.meets i = true ∧ ∀ t ∈ s.residuals i, t ∈ visited := by
  constructor
  · intro hs
    obtain ⟨i, hi, hsettles⟩ := hs
    rcases hsettles with heq | hvisited
    · subst heq
      exact ⟨s, hi, Signature.meets_self h,
        fun t ht => absurd ht (Signature.not_mem_residuals_self s t)⟩
    · exact ⟨i, hi, hvisited⟩
  · intro hs
    obtain ⟨i, hi, hvisited⟩ := hs
    exact ⟨i, hi, .inr hvisited⟩

/-- An inhabited signature is unmatched when no implementation overlaps it. -/
theorem isUnmatched_iff {implementations : List Signature} {s : Signature}
    (h : s.isInhabited = true) :
    IsUnmatched implementations s ↔ ∀ i ∈ implementations, s.meets i = false := by
  constructor
  · intro hu i hi
    exact (hu i hi).2
  · intro hu i hi
    refine ⟨fun heq => ?_, hu i hi⟩
    have hm := hu i hi
    rw [← heq, Signature.meets_self h] at hm
    cases hm

end DispatchCoverage

import DispatchCoverage.Proofs.Accounting

/-!
# What a step answers

A step answers whether its signature is completely implemented, and with which
signatures the check goes on otherwise. It says that the signature is complete
exactly when some implementation equals it, or overlaps it with no residual
that was not visited. It says that the signature is incomplete and that nothing
goes on exactly when no implementation equals or overlaps it. In all other
cases the check goes on with the residuals that were not visited, under all
overlapping implementations. An uncovered tuple is never lost: unless the
signature is unmatched, it lies in a smaller signature that was visited before
or that the check goes on with.
-/

namespace DispatchCoverage

section Overlap

variable {implementations : List Signature} {visited : SignatureSet} {s t : Signature}
  (harity : ∀ i ∈ implementations, i.arity = s.arity)
include harity

/-- A signature is settled by an implementation that equals it, or overlaps it
with all residuals visited. -/
theorem isSettled_iff_overlaps :
    IsSettled implementations visited s ↔ ∃ i ∈ implementations,
      s = i ∨ (s.overlaps i = .ok true ∧ ∀ t ∈ s.residuals i, t ∈ visited) := by
  refine exists_congr fun i => and_congr_right fun hi => or_congr_right ?_
  rw [Signature.overlaps_eq_ok_iff, and_iff_right (harity i hi).symm]

/-- A signature is unmatched when no implementation equals or overlaps it. -/
theorem isUnmatched_iff_overlaps :
    IsUnmatched implementations s ↔ ∀ i ∈ implementations, s ≠ i ∧ s.overlaps i = .ok false := by
  refine forall_congr' fun i => forall_congr' fun hi => and_congr_right fun _ => ?_
  rw [Signature.overlaps_eq_ok_iff, and_iff_right (harity i hi).symm]

/-- The residuals of a signature are those under the implementations that
overlap it. -/
theorem isResidual_iff_overlaps :
    IsResidual implementations s t ↔
      ∃ i ∈ implementations, s.overlaps i = .ok true ∧ t ∈ s.residuals i := by
  refine exists_congr fun i => and_congr_right fun hi => and_congr_left fun _ => ?_
  rw [Signature.overlaps_eq_ok_iff, and_iff_right (harity i hi).symm]

end Overlap

/-- The answer of a step, described by the implementations alone. -/
structure Verdict.Describes (verdict : Verdict) (implementations : List Signature)
    (visited : SignatureSet) (s : Signature) : Prop where
  /-- The signature is complete exactly when it is settled. -/
  isComplete_iff : verdict.isComplete = true ↔ IsSettled implementations visited s
  /-- Of a signature that is not complete, the fresh residuals remain. -/
  mem_successors : ∀ t, t ∈ verdict.successors ↔
    verdict.isComplete = false ∧ t ∉ visited ∧ IsResidual implementations s t

namespace Verdict.Describes

variable {implementations : List Signature} {visited : SignatureSet} {s : Signature}
  {verdict : Verdict} (h : verdict.Describes implementations visited s)
include h

/-- With a complete signature the check does not go on. -/
theorem successors_eq_empty (hcomplete : verdict.isComplete = true) : verdict.successors = ∅ := by
  refine Ascending.ext_mem fun t => iff_of_false (fun ht => ?_) (Ascending.not_mem_empty t)
  have hincomplete := ((h.mem_successors t).1 ht).1
  rw [hcomplete] at hincomplete
  cases hincomplete

/-- A signature that is not complete leaves nothing to go on with exactly when
it is unmatched. -/
theorem incomplete_iff_isUnmatched :
    verdict.isComplete = false ∧ verdict.successors = ∅ ↔ IsUnmatched implementations s := by
  constructor
  · intro hnone
    obtain ⟨hincomplete, hempty⟩ := hnone
    have hsettled : ¬ IsSettled implementations visited s := by
      intro hsettled
      rw [h.isComplete_iff.2 hsettled] at hincomplete
      cases hincomplete
    by_contra hmatched
    obtain ⟨t, ht, hr⟩ := (exists_isResidual_iff hsettled).2 hmatched
    have hmem := (h.mem_successors t).2 ⟨hincomplete, ht, hr⟩
    rw [hempty] at hmem
    exact Ascending.not_mem_empty t hmem
  · intro hunmatched
    have hincomplete : verdict.isComplete = false := by
      rw [Bool.eq_false_iff, ne_eq, h.isComplete_iff]
      exact hunmatched.not_isSettled
    refine ⟨hincomplete, Ascending.ext_mem fun t => iff_of_false (fun ht => ?_)
      (Ascending.not_mem_empty t)⟩
    obtain ⟨_, hfresh, hr⟩ := (h.mem_successors t).1 ht
    have hmatched := (exists_isResidual_iff hunmatched.not_isSettled).1 ⟨t, hfresh, hr⟩
    exact hmatched hunmatched

end Verdict.Describes

namespace Solver

/-- A step over implementations of one arity has an answer, whatever was
visited before. -/
theorem exists_describes {solver : Solver} {s : Signature} (visited : SignatureSet)
    (harity : ∀ i ∈ solver.implementations, i.arity = s.arity) :
    ∃ verdict, solver.step visited s = .ok verdict ∧
      verdict.Describes solver.implementations visited s := by
  have hsame : ∀ i ∈ solver.implementations, s.arity = i.arity :=
    fun i hi => (harity i hi).symm
  by_cases hsettled : IsSettled solver.implementations visited s
  · refine ⟨.covered, step_of_isSettled hsame hsettled, iff_of_true rfl hsettled, fun t => ?_⟩
    exact iff_of_false (Ascending.not_mem_empty t) fun ht => nomatch ht.1
  · obtain ⟨successors, hstep, hmem⟩ := step_of_not_isSettled hsame hsettled
    refine ⟨.pending successors, hstep, iff_of_false (fun ht => nomatch ht) hsettled, fun t => ?_⟩
    exact (hmem t).trans (and_iff_right rfl).symm

/-- A step against implementations of one arity answers with a pair. The
signature is complete, and nothing remains, exactly when some implementation
equals it or overlaps it with all residuals visited. It is incomplete and
nothing remains exactly when no implementation equals or overlaps it. If
something remains, the signature is incomplete and what remains are the
residuals under all overlapping implementations that were not visited. Each
uncovered tuple of a complete signature lies in a visited signature that is
within it and different from it; if something remains, it lies in such a
signature that was visited or remains. -/
theorem step_classifies {solver : Solver} {s : Signature} (visited : SignatureSet)
    (harity : ∀ i ∈ solver.implementations, i.arity = s.arity) :
    ∃ verdict, solver.step visited s = .ok verdict ∧
      (verdict.isComplete = true ∧ verdict.successors = ∅ ↔ ∃ i ∈ solver.implementations,
        s = i ∨ (s.overlaps i = .ok true ∧ ∀ t ∈ s.residuals i, t ∈ visited)) ∧
      (verdict.isComplete = false ∧ verdict.successors = ∅ ↔
        ∀ i ∈ solver.implementations, s ≠ i ∧ s.overlaps i = .ok false) ∧
      (verdict.successors ≠ ∅ → verdict.isComplete = false ∧
        ∀ t, t ∈ verdict.successors ↔ t ∉ visited ∧
          ∃ i ∈ solver.implementations, s.overlaps i = .ok true ∧ t ∈ s.residuals i) ∧
      ∀ tuple, s.Accepts tuple → (∀ i ∈ solver.implementations, ¬ i.Accepts tuple) →
        (verdict.isComplete = true → ∃ t ∈ visited, t.Within s ∧ t ≠ s ∧ t.Accepts tuple) ∧
        (verdict.successors ≠ ∅ →
          ∃ t, (t ∈ verdict.successors ∨ t ∈ visited) ∧ t.Within s ∧ t ≠ s ∧
            t.Accepts tuple) := by
  have hsame : ∀ i ∈ solver.implementations, s.arity = i.arity :=
    fun i hi => (harity i hi).symm
  obtain ⟨verdict, hstep, h⟩ := exists_describes visited harity
  have hincomplete : verdict.successors ≠ ∅ → verdict.isComplete = false :=
    fun hne => Bool.eq_false_iff.2 fun hcomplete => hne (h.successors_eq_empty hcomplete)
  refine ⟨verdict, hstep, ?_, ?_, fun hne => ⟨hincomplete hne, fun t => ?_⟩,
    fun tuple hs huncovered => ⟨fun hcomplete => ?_, fun hne => ?_⟩⟩
  · rw [← isSettled_iff_overlaps harity, ← h.isComplete_iff]
    exact and_iff_left_of_imp h.successors_eq_empty
  · rw [← isUnmatched_iff_overlaps harity]
    exact h.incomplete_iff_isUnmatched
  · rw [h.mem_successors, and_iff_right (hincomplete hne), isResidual_iff_overlaps harity]
  · have hsettled := h.isComplete_iff.1 hcomplete
    obtain ⟨t, ht, hr, haccepts⟩ := hsettled.exists_accepts hsame hs huncovered
    exact ⟨t, ht, hr.within hsame, hr.ne, haccepts⟩
  · have hsettled : ¬ IsSettled solver.implementations visited s := by
      rw [← h.isComplete_iff, hincomplete hne]
      exact Bool.false_ne_true
    have hmatched : ¬ IsUnmatched solver.implementations s := by
      rw [← h.incomplete_iff_isUnmatched]
      exact fun hnone => hne hnone.2
    obtain ⟨t, hr, haccepts⟩ :=
      exists_isResidual_accepts hsame hs huncovered hsettled hmatched
    refine ⟨t, ?_, hr.within hsame, hr.ne, haccepts⟩
    by_cases ht : t ∈ visited
    · exact .inr ht
    · exact .inl ((h.mem_successors t).2 ⟨hincomplete hne, ht, hr⟩)

/-- An implementation of one corner of a square of two tags by two, and one of
its lower row. -/
def cornerAndRow : Solver :=
  { implementations := [.ofLetters [['A'], ['X']], .ofLetters [['A', 'B'], ['X']]] }

/-- Once the upper row was visited, the square is complete, although the corner
alone would leave fresh residuals. The uncovered tuple of B and Y lies in a
smaller signature that was visited. -/
theorem step_classifies_cornerAndRow :
    let square := Signature.ofLetters [['A', 'B'], ['X', 'Y']]
    let visited : SignatureSet := .ofList [.ofLetters [['A', 'B'], ['Y']]]
    (∀ i ∈ cornerAndRow.implementations, i.arity = square.arity) ∧
      ∃ verdict, cornerAndRow.step visited square = .ok verdict ∧
        verdict.isComplete = true ∧
        ∃ t ∈ visited, t.Within square ∧ t ≠ square ∧
          t.Accepts (Signature.letters ['B', 'Y']) := by
  intro square visited
  have harity : ∀ i ∈ cornerAndRow.implementations, i.arity = square.arity := by decide
  have hsettled : ∃ i ∈ cornerAndRow.implementations,
      square = i ∨ (square.overlaps i = .ok true ∧ ∀ t ∈ square.residuals i, t ∈ visited) := by
    decide +kernel
  have haccepts : square.Accepts (Signature.letters ['B', 'Y']) := by decide +kernel
  have huncovered : ∀ i ∈ cornerAndRow.implementations,
      ¬ i.Accepts (Signature.letters ['B', 'Y']) := by decide +kernel
  obtain ⟨verdict, hstep, hcomplete, _, _, htuples⟩ := step_classifies visited harity
  have hanswer := (hcomplete.2 hsettled).1
  exact ⟨harity, verdict, hstep, hanswer, (htuples _ haccepts huncovered).1 hanswer⟩

end Solver

end DispatchCoverage

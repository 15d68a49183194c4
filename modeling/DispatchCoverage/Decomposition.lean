import DispatchCoverage.Residual

/-!
# One step of decomposition

A signature is held against every implementation in turn. It is covered when
an implementation equals it, or overlaps it and leaves only residuals that
have been visited before. Otherwise the residuals not visited yet, of all
overlapping implementations, remain to be checked; if no implementation
overlaps the signature, nothing remains and the signature itself is left
unimplemented.
-/

namespace DispatchCoverage

/-- What holding one signature against all implementations shows. -/
inductive Verdict where
  /-- Nothing of the signature needs another look. -/
  | covered
  /-- The signatures that remain to be checked in its place; without any, no
  implementation overlaps the signature. -/
  | pending (successors : SignatureSet)
  /-- A residual is uninhabited, which the algebra of signatures rules out. -/
  | inconsistent (implementation residual : Signature)

namespace Verdict

/-- Whether the signature is completely implemented. -/
def isComplete : Verdict → Bool
  | covered => true
  | pending _ => false
  | inconsistent _ _ => false

/-- The signatures that remain to be checked. -/
def successors : Verdict → SignatureSet
  | covered => ∅
  | pending successors => successors
  | inconsistent _ _ => ∅

end Verdict

/-- Hold a signature against the remaining implementations, given the
residuals collected from earlier ones. -/
def decomposeFrom (visited : SignatureSet) (s : Signature) :
    SignatureSet → List Signature → Except ArityMismatch Verdict
  | collected, [] => .ok (.pending collected)
  | collected, i :: rest =>
    if s = i then .ok .covered
    else if s.arity ≠ i.arity then .error ⟨s, i⟩
    else if s.meets i then
      match (s.residuals i).find? (fun t => !t.isInhabited) with
      | some t => .ok (.inconsistent i t)
      | none =>
        let fresh := Ascending.ofList ((s.residuals i).filter (fun t => !visited.contains t))
        if fresh.isEmpty then .ok .covered
        else decomposeFrom visited s (fresh.union collected) rest
    else decomposeFrom visited s collected rest

/-- Hold a signature against all implementations. -/
def decompose (implementations : List Signature) (visited : SignatureSet) (s : Signature) :
    Except ArityMismatch Verdict :=
  decomposeFrom visited s ∅ implementations

/-- What remains of a signature was collected earlier or has fewer tags than
the signature. -/
theorem size_lt_of_mem_decomposeFrom {visited : SignatureSet} {s : Signature}
    {implementations : List Signature} {collected : SignatureSet} {v : Verdict}
    (h : decomposeFrom visited s collected implementations = .ok v) {t : Signature}
    (ht : t ∈ v.successors) : t ∈ collected ∨ t.size < s.size := by
  induction implementations generalizing collected with
  | nil =>
    simp only [decomposeFrom, Except.ok.injEq] at h
    subst h
    exact .inl ht
  | cons i rest ih =>
    unfold decomposeFrom at h
    split at h
    · cases h; exact absurd ht (Ascending.not_mem_empty t)
    split at h
    · cases h
    split at h
    · rename_i hm
      split at h
      · cases h; exact absurd ht (Ascending.not_mem_empty t)
      dsimp only at h
      split at h
      · cases h; exact absurd ht (Ascending.not_mem_empty t)
      rcases ih h with hc | hlt
      · rcases Ascending.mem_union.1 hc with hf | hc
        · have hr := (List.mem_filter.1 (Ascending.mem_ofList.1 hf)).1
          exact .inr (Signature.size_residual_lt hm hr)
        · exact .inl hc
      · exact .inr hlt
    · exact ih h

/-- What remains of a signature has fewer tags than the signature. -/
theorem size_lt_of_mem_decompose {implementations : List Signature} {visited : SignatureSet}
    {s t : Signature} {v : Verdict} (h : decompose implementations visited s = .ok v)
    (ht : t ∈ v.successors) : t.size < s.size :=
  (size_lt_of_mem_decomposeFrom h ht).resolve_left (Ascending.not_mem_empty t)

end DispatchCoverage

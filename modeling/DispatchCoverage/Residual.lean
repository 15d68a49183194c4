import DispatchCoverage.Signature
import DispatchCoverage.Subsets

/-!
# Residuals of a signature

What an overlapping implementation leaves uncovered of a signature splits into
residuals. Every uncovered tuple deviates from the implementation at some
non-empty set of positions; the residual of such a set of positions has there
the tags that the implementation lacks, and elsewhere the common tags. A
residual has fewer tags in all than the signature it comes from, so repeated
splitting ends.
-/

namespace DispatchCoverage

namespace Signature

/-- The positions at which an implementation lacks some tag of a signature. -/
def deficientPositions (s i : Signature) : List Nat :=
  (List.range (s.excess i).arity).filter fun k =>
    (s.excess i).parameters[k]?.any (fun p => !p.isEmpty)

/-- The parts of a signature that deviate from an overlapping implementation
at a non-empty set of deficient positions, one for each such set. -/
def residuals (s i : Signature) : List Signature :=
  ((subsets (s.deficientPositions i)).filter (fun v => !v.isEmpty)).map
    (copyFrom (s.excess i) (s.meet i))

/-- Copying one position changes no other position. -/
theorem getElem?_copyAt (other s : Signature) (j k : Nat) :
    (copyAt other s j).parameters[k]? =
      if k = j then s.parameters[k]?.map (other.parameters[k]?.getD ·)
      else s.parameters[k]? := by
  unfold copyAt
  split
  · rename_i p hp
    simp only [List.getElem?_set]
    by_cases h : j = k
    · subst h
      by_cases hk : j < s.parameters.length <;> simp [hk, hp]
    · simp [h, Ne.symm h]
  · rename_i hp
    split
    · rename_i h
      subst h
      simp [hp]
    · rfl

/-- Copying several positions takes those from the other signature and keeps
the rest. -/
theorem getElem?_copyFrom (other s : Signature) (v : List Nat) (k : Nat) :
    (copyFrom other s v).parameters[k]? =
      if k ∈ v then s.parameters[k]?.map (other.parameters[k]?.getD ·)
      else s.parameters[k]? := by
  induction v generalizing s with
  | nil => rfl
  | cons j v ih =>
    show (copyFrom other (copyAt other s j) v).parameters[k]? = _
    rw [ih, getElem?_copyAt]
    by_cases hj : k = j
    · subst hj
      cases ho : other.parameters[k]? <;> cases hs : s.parameters[k]? <;> simp
    · by_cases hv : k ∈ v <;> simp [hj, hv]

/-- Copying positions keeps the arity. -/
@[simp] theorem arity_copyFrom (other s : Signature) (v : List Nat) :
    (copyFrom other s v).arity = s.arity := by
  induction v generalizing s with
  | nil => rfl
  | cons j v ih =>
    show (copyFrom other (copyAt other s j) v).arity = _
    rw [ih]
    unfold copyAt arity
    split <;> simp

end Signature

/-- The size of a signature is bounded by that of one that is at least as large
at every position. -/
theorem size_le_of_getElem? {ps qs : List TypeSet}
    (h : ∀ (k : Nat) p, ps[k]? = some p → ∃ q, qs[k]? = some q ∧ p.size ≤ q.size) :
    (Signature.mk ps).size ≤ (Signature.mk qs).size := by
  induction ps generalizing qs with
  | nil => exact Nat.zero_le _
  | cons p ps ih =>
    cases qs with
    | nil => obtain ⟨q, hq, _⟩ := h 0 p rfl; simp at hq
    | cons q qs =>
      have h0 : p.size ≤ q.size := by
        obtain ⟨r, hr, hle⟩ := h 0 p rfl
        simp only [List.getElem?_cons_zero, Option.some.injEq] at hr
        exact hr ▸ hle
      have hr : (Signature.mk ps).size ≤ (Signature.mk qs).size :=
        ih fun k r hr => by simpa using h (k + 1) r (by simpa using hr)
      exact Nat.add_le_add h0 hr

/-- The bound is strict when the other signature is larger at some position. -/
theorem size_lt_of_getElem? {ps qs : List TypeSet}
    (h : ∀ (k : Nat) p, ps[k]? = some p → ∃ q, qs[k]? = some q ∧ p.size ≤ q.size)
    {j : Nat} {p q : TypeSet} (hp : ps[j]? = some p) (hq : qs[j]? = some q)
    (hlt : p.size < q.size) : (Signature.mk ps).size < (Signature.mk qs).size := by
  induction ps generalizing qs j with
  | nil => simp at hp
  | cons a ps ih =>
    cases qs with
    | nil => simp at hq
    | cons b qs =>
      have h0 : a.size ≤ b.size := by
        obtain ⟨r, hr, hle⟩ := h 0 a rfl
        simp only [List.getElem?_cons_zero, Option.some.injEq] at hr
        exact hr ▸ hle
      have ht : ∀ (k : Nat) r, ps[k]? = some r → ∃ q, qs[k]? = some q ∧ r.size ≤ q.size :=
        fun k r hr => by simpa using h (k + 1) r (by simpa using hr)
      cases j with
      | zero =>
        simp only [List.getElem?_cons_zero, Option.some.injEq] at hp hq
        subst hp hq
        exact Nat.add_lt_add_of_lt_of_le hlt (size_le_of_getElem? ht)
      | succ j =>
        exact Nat.add_lt_add_of_le_of_lt h0 (ih ht (by simpa using hp) (by simpa using hq))

namespace Signature

/-- The common tags at a position. -/
theorem getElem?_meet (s i : Signature) (k : Nat) :
    (s.meet i).parameters[k]? = (s.parameters[k]?).bind fun p =>
      (i.parameters[k]?).map fun q => p.inter q := by
  simp only [meet, List.getElem?_zipWith]
  cases s.parameters[k]? <;> cases i.parameters[k]? <;> rfl

/-- The tags at a position that the second signature lacks. -/
theorem getElem?_excess (s i : Signature) (k : Nat) :
    (s.excess i).parameters[k]? = (s.parameters[k]?).bind fun p =>
      (i.parameters[k]?).map fun q => p.diff q := by
  simp only [excess, List.getElem?_zipWith]
  cases s.parameters[k]? <;> cases i.parameters[k]? <;> rfl

/-- Signatures that meet have a common tag at each position of both. -/
theorem exists_mem_of_meets {s i : Signature} (h : s.meets i = true) {k : Nat} {p q : TypeSet}
    (hp : s.parameters[k]? = some p) (hq : i.parameters[k]? = some q) : ∃ t, t ∈ p ∧ t ∈ q := by
  have hz : (p, q) ∈ s.parameters.zip i.parameters := by
    refine List.mem_iff_getElem?.2 ⟨k, ?_⟩
    simp [List.getElem?_zip_eq_some, hp, hq]
  exact Ascending.meets_iff.1 (List.all_eq_true.1 h _ hz)

/-- A residual under an overlapping implementation has fewer tags than the
signature it comes from. -/
theorem size_residual_lt {s i t : Signature} (hm : s.meets i = true) (ht : t ∈ s.residuals i) :
    t.size < s.size := by
  obtain ⟨v, hv, rfl⟩ := List.mem_map.1 ht
  obtain ⟨hv, hne⟩ := List.mem_filter.1 hv
  have hcases : ∀ (k : Nat) x, (copyFrom (s.excess i) (s.meet i) v).parameters[k]? = some x →
      ∃ p q, s.parameters[k]? = some p ∧ i.parameters[k]? = some q ∧
        ((k ∈ v ∧ x = p.diff q) ∨ (k ∉ v ∧ x = p.inter q)) := by
    intro k x hx
    rw [getElem?_copyFrom, getElem?_meet, getElem?_excess] at hx
    cases hp : s.parameters[k]? with
    | none => simp [hp] at hx
    | some p =>
      cases hq : i.parameters[k]? with
      | none => simp [hp, hq] at hx
      | some q =>
        refine ⟨p, q, rfl, rfl, ?_⟩
        by_cases hk : k ∈ v <;> simp_all
  obtain ⟨j, hj⟩ : ∃ j, j ∈ v := by
    cases v with
    | nil => simp at hne
    | cons j _ => exact ⟨j, List.mem_cons_self⟩
  have hd := (mem_subsets.1 hv).subset hj
  have hjlt : j < (s.excess i).arity := by
    have := (List.mem_filter.1 hd).1
    exact List.mem_range.1 this
  have hjm : j < (copyFrom (s.excess i) (s.meet i) v).parameters.length := by
    have h1 : (copyFrom (s.excess i) (s.meet i) v).arity = (s.excess i).arity := by
      rw [arity_copyFrom]; simp [arity, meet, excess]
    exact Nat.lt_of_lt_of_eq hjlt h1.symm
  obtain ⟨p, q, hp, hq, hx⟩ := hcases j _ (List.getElem?_eq_getElem hjm)
  refine size_lt_of_getElem? (fun k x hx => ?_) (List.getElem?_eq_getElem hjm) hp ?_
  · obtain ⟨p, q, hp, _, h⟩ := hcases k x hx
    refine ⟨p, hp, ?_⟩
    rcases h with ⟨_, rfl⟩ | ⟨_, rfl⟩ <;> exact Ascending.size_filter_le _ _
  · rcases hx with ⟨_, hx⟩ | ⟨hn, _⟩
    · obtain ⟨a, hap, haq⟩ := exists_mem_of_meets hm hp hq
      rw [hx]
      exact Ascending.size_filter_lt hap (by simp [haq])
    · exact absurd hj hn

end Signature

end DispatchCoverage

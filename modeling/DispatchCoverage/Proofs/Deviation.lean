import Mathlib.Data.List.Basic
import DispatchCoverage.Residual
import DispatchCoverage.Signature.Region

/-!
# The parts of a signature that deviate from an implementation

For a set of positions, a signature has one part that deviates from an
implementation exactly there: it accepts the tuples of the signature whose tag
is refused by the implementation at these positions and at no other. The
residuals are the parts for the non-empty sets of deficient positions. Hence a
residual lies within its signature, is inhabited, does not overlap the
implementation, and every tuple of the signature that the implementation
refuses lies in a residual.
-/

namespace DispatchCoverage.Signature

/-- The atomic tags named by single letters, for worked cases. -/
def letters (cs : List Char) : List Tag :=
  cs.map fun c => Tag.atom ⟨String.singleton c, String.singleton_ne_empty⟩

/-- The signature whose sets hold tags of single letters, for worked cases. -/
def ofLetters (columns : List (List Char)) : Signature :=
  ⟨columns.map fun cs => Ascending.ofList (letters cs)⟩

/-- A tuple is accepted when it has one tag for every parameter and the k-th
tag is in the k-th set. -/
theorem accepts_iff_getElem? {s : Signature} {tuple : List Tag} :
    s.Accepts tuple ↔ tuple.length = s.arity ∧
      ∀ (k : Nat) p t, s.parameters[k]? = some p → tuple[k]? = some t → t ∈ p :=
  acceptsAll_iff_getElem?

/-- Signatures of one arity have the same positions. -/
theorem exists_getElem?_of_arity_eq {s t : Signature} (h : s.arity = t.arity) {k : Nat}
    {p : TypeSet} (hp : s.parameters[k]? = some p) : ∃ q, t.parameters[k]? = some q := by
  obtain ⟨hk, _⟩ := List.getElem?_eq_some_iff.1 hp
  have hk : k < t.parameters.length := Nat.lt_of_lt_of_eq hk h
  exact ⟨t.parameters[k], List.getElem?_eq_getElem hk⟩

/-- An accepted tuple has a tag at every position of the signature. -/
theorem Accepts.exists_getElem? {s : Signature} {tuple : List Tag} (h : s.Accepts tuple) {k : Nat}
    {p : TypeSet} (hp : s.parameters[k]? = some p) : ∃ t, tuple[k]? = some t ∧ t ∈ p := by
  obtain ⟨hk, _⟩ := List.getElem?_eq_some_iff.1 hp
  have hlen : tuple.length = s.parameters.length := h.length_eq
  have ht : tuple[k]? = some tuple[k] := List.getElem?_eq_getElem (by omega)
  exact ⟨tuple[k], ht, (accepts_iff_getElem?.1 h).2 k p _ hp ht⟩

/-- Signatures of one arity can be tested for overlap. -/
theorem overlaps_eq_ok {s t : Signature} (h : s.arity = t.arity) :
    s.overlaps t = .ok (s.meets t) := by
  rw [overlaps, checkArity, if_pos h]
  rfl

/-- A test for overlap has an answer exactly when the arities agree. -/
theorem overlaps_eq_ok_iff {s t : Signature} {answer : Bool} :
    s.overlaps t = .ok answer ↔ s.arity = t.arity ∧ s.meets t = answer := by
  constructor
  · intro h
    by_cases harity : s.arity = t.arity
    · rw [overlaps_eq_ok harity] at h
      exact ⟨harity, Except.ok.inj h⟩
    · rw [overlaps, checkArity, if_neg harity] at h
      cases h
  · intro h
    rw [overlaps_eq_ok h.1, h.2]

/-- Two signatures of one arity meet exactly when they accept a common
tuple. -/
theorem meets_iff_exists_accepts {s t : Signature} (h : s.arity = t.arity) :
    s.meets t = true ↔ ∃ tuple, s.Accepts tuple ∧ t.Accepts tuple := by
  rw [meets_eq_isInhabited_meet, isInhabited_iff]
  simp only [accepts_meet h]

/-- Two signatures of one arity meet in either order. -/
theorem meets_comm {s t : Signature} (h : s.arity = t.arity) : s.meets t = t.meets s := by
  rw [Bool.eq_iff_iff, meets_iff_exists_accepts h, meets_iff_exists_accepts h.symm]
  simp only [And.comm]

/-- A signature is within another one of the same arity when, at every
position, its tags belong to the other. -/
theorem within_iff_getElem? {s t : Signature} :
    s.Within t ↔ s.arity = t.arity ∧ ∀ (k : Nat) p q, s.parameters[k]? = some p →
      t.parameters[k]? = some q → ∀ a ∈ p, a ∈ q := by
  refine and_congr_right fun _ => ⟨fun h k p q hp hq => ?_, fun h pq hpq => ?_⟩
  · have hz : (p, q) ∈ s.parameters.zip t.parameters := by
      rw [List.mem_iff_getElem?]
      exact ⟨k, List.getElem?_zip_eq_some.2 ⟨hp, hq⟩⟩
    exact h (p, q) hz
  · obtain ⟨k, hk⟩ := List.mem_iff_getElem?.1 hpq
    obtain ⟨hp, hq⟩ := List.getElem?_zip_eq_some.1 hk
    exact h k pq.1 pq.2 hp hq

/-- Every signature is within itself. -/
theorem Within.refl (s : Signature) : s.Within s := by
  refine within_iff_getElem?.2 ⟨rfl, fun k p q hp hq a ha => ?_⟩
  rw [hp] at hq
  cases hq
  exact ha

/-- What is within a signature is within all that contains the signature. -/
theorem Within.trans {s t u : Signature} (hst : s.Within t) (htu : t.Within u) : s.Within u := by
  refine within_iff_getElem?.2 ⟨hst.1.trans htu.1, fun k p r hp hr a ha => ?_⟩
  obtain ⟨q, hq⟩ := exists_getElem?_of_arity_eq hst.1 hp
  have haq := (within_iff_getElem?.1 hst).2 k p q hp hq a ha
  exact (within_iff_getElem?.1 htu).2 k q r hq hr a haq

/-- Whatever meets a part of a signature meets the signature. -/
theorem Within.meets {s t i : Signature} (h : s.Within t) (hi : s.arity = i.arity)
    (hm : s.meets i = true) : t.meets i = true := by
  obtain ⟨tuple, hs, hit⟩ := (meets_iff_exists_accepts hi).1 hm
  exact (meets_iff_exists_accepts (h.1.symm.trans hi)).2 ⟨tuple, h.accepts hs, hit⟩

/-- The part of a signature that deviates from an implementation exactly at
some positions. -/
def deviation (s i : Signature) (positions : List Nat) : Signature :=
  copyFrom (s.excess i) (s.meet i) positions

/-- A deviation has the lacking tags at its positions and the common tags
elsewhere. -/
theorem getElem?_deviation {s i : Signature} {v : List Nat} {k : Nat} {p q : TypeSet}
    (hp : s.parameters[k]? = some p) (hq : i.parameters[k]? = some q) :
    (s.deviation i v).parameters[k]? = some (if k ∈ v then p.diff q else p.inter q) := by
  rw [deviation, getElem?_copyFrom, getElem?_meet, getElem?_excess, hp, hq]
  by_cases hk : k ∈ v <;> simp [hk]

/-- A deviation has the arity of its signature. -/
theorem arity_deviation {s i : Signature} (h : s.arity = i.arity) (v : List Nat) :
    (s.deviation i v).arity = s.arity := by
  have hlen : s.parameters.length = i.parameters.length := h
  rw [deviation, arity_copyFrom]
  show (s.parameters.zipWith Ascending.inter i.parameters).length = s.parameters.length
  rw [List.length_zipWith]
  omega

/-- The set of a deviation at a position is made of the sets of the signature
and of the implementation there. -/
theorem exists_of_getElem?_deviation {s i : Signature} (h : s.arity = i.arity) {v : List Nat}
    {k : Nat} {r : TypeSet} (hr : (s.deviation i v).parameters[k]? = some r) :
    ∃ p q, s.parameters[k]? = some p ∧ i.parameters[k]? = some q ∧
      r = if k ∈ v then p.diff q else p.inter q := by
  obtain ⟨p, hp⟩ := exists_getElem?_of_arity_eq (arity_deviation h v) hr
  obtain ⟨q, hq⟩ := exists_getElem?_of_arity_eq h hp
  rw [getElem?_deviation hp hq] at hr
  exact ⟨p, q, hp, hq, (Option.some.inj hr).symm⟩

/-- A deviation accepts the tuples of the signature that the implementation
refuses at the chosen positions and at no other. -/
theorem accepts_deviation {s i : Signature} (h : s.arity = i.arity) {v : List Nat}
    {tuple : List Tag} :
    (s.deviation i v).Accepts tuple ↔ s.Accepts tuple ∧
      ∀ (k : Nat) q t, i.parameters[k]? = some q → tuple[k]? = some t → (t ∈ q ↔ k ∉ v) := by
  rw [accepts_iff_getElem?, accepts_iff_getElem?, arity_deviation h]
  constructor
  · intro h
    obtain ⟨hlen, hd⟩ := h
    have hmem : ∀ (k : Nat) p q t, s.parameters[k]? = some p → i.parameters[k]? = some q →
        tuple[k]? = some t → t ∈ p ∧ (t ∈ q ↔ k ∉ v) := by
      intro k p q t hp hq ht
      have hin := hd k _ t (getElem?_deviation hp hq) ht
      by_cases hk : k ∈ v
      · rw [if_pos hk, Ascending.mem_diff] at hin
        exact ⟨hin.1, iff_of_false hin.2 (not_not_intro hk)⟩
      · rw [if_neg hk, Ascending.mem_inter] at hin
        exact ⟨hin.1, iff_of_true hin.2 hk⟩
    refine ⟨⟨hlen, fun k p t hp ht => ?_⟩, fun k q t hq ht => ?_⟩
    · obtain ⟨q, hq⟩ := exists_getElem?_of_arity_eq h hp
      exact (hmem k p q t hp hq ht).1
    · obtain ⟨p, hp⟩ := exists_getElem?_of_arity_eq h.symm hq
      exact (hmem k p q t hp hq ht).2
  · intro h
    obtain ⟨⟨hlen, hs⟩, hi⟩ := h
    refine ⟨hlen, fun k r t hr ht => ?_⟩
    obtain ⟨p, q, hp, hq, rfl⟩ := exists_of_getElem?_deviation h hr
    have hin := hi k q t hq ht
    by_cases hk : k ∈ v
    · rw [if_pos hk, Ascending.mem_diff]
      exact ⟨hs k p t hp ht, fun hq' => hin.1 hq' hk⟩
    · rw [if_neg hk, Ascending.mem_inter]
      exact ⟨hs k p t hp ht, hin.2 hk⟩

/-- A deviation lies within its signature. -/
theorem deviation_within {s i : Signature} (h : s.arity = i.arity) (v : List Nat) :
    (s.deviation i v).Within s := by
  refine within_iff_getElem?.2 ⟨arity_deviation h v, fun k r p hr hp a ha => ?_⟩
  obtain ⟨p', q, hp', _, rfl⟩ := exists_of_getElem?_deviation h hr
  rw [hp] at hp'
  cases hp'
  by_cases hk : k ∈ v
  · rw [if_pos hk, Ascending.mem_diff] at ha
    exact ha.1
  · rw [if_neg hk, Ascending.mem_inter] at ha
    exact ha.1

/-- A position is deficient when the implementation lacks a tag that the
signature has there. -/
theorem mem_deficientPositions {s i : Signature} {k : Nat} :
    k ∈ s.deficientPositions i ↔ ∃ p q, s.parameters[k]? = some p ∧ i.parameters[k]? = some q ∧
      ∃ a, a ∈ p ∧ a ∉ q := by
  rw [deficientPositions, List.mem_filter, List.mem_range, Option.any_eq_true, getElem?_excess]
  constructor
  · intro h
    obtain ⟨_, r, hr, hne⟩ := h
    obtain ⟨p, hp, hr⟩ := Option.bind_eq_some_iff.1 hr
    obtain ⟨q, hq, rfl⟩ := Option.map_eq_some_iff.1 hr
    obtain ⟨a, ha⟩ := Ascending.isEmpty_eq_false_iff.1 (Bool.not_eq_true' _ ▸ hne)
    exact ⟨p, q, hp, hq, a, Ascending.mem_diff.1 ha⟩
  · intro h
    obtain ⟨p, q, hp, hq, a, ha⟩ := h
    have hr : (s.excess i).parameters[k]? = some (p.diff q) := by
      rw [getElem?_excess, hp, hq]
      rfl
    have hne : (p.diff q).isEmpty = false :=
      Ascending.isEmpty_eq_false_iff.2 ⟨a, Ascending.mem_diff.2 ha⟩
    obtain ⟨hk, _⟩ := List.getElem?_eq_some_iff.1 hr
    refine ⟨hk, p.diff q, ?_, by rw [hne]; rfl⟩
    rw [hp, hq]
    rfl

/-- A deficient position is a position of the signature. -/
theorem lt_arity_of_mem_deficientPositions {s i : Signature} {k : Nat}
    (hk : k ∈ s.deficientPositions i) : k < s.arity := by
  obtain ⟨p, _, hp, _⟩ := mem_deficientPositions.1 hk
  obtain ⟨hlt, _⟩ := List.getElem?_eq_some_iff.1 hp
  exact hlt

/-- A deviation from an overlapping implementation at deficient positions is
inhabited. -/
theorem isInhabited_deviation {s i : Signature} (h : s.arity = i.arity)
    (hm : s.meets i = true) {v : List Nat} (hv : ∀ k ∈ v, k ∈ s.deficientPositions i) :
    (s.deviation i v).isInhabited = true := by
  rw [isInhabited, List.all_eq_true]
  intro r hr
  obtain ⟨k, hk⟩ := List.mem_iff_getElem?.1 hr
  obtain ⟨p, q, hp, hq, rfl⟩ := exists_of_getElem?_deviation h hk
  rw [Bool.not_eq_true', Ascending.isEmpty_eq_false_iff]
  by_cases hkv : k ∈ v
  · obtain ⟨p', q', hp', hq', a, ha⟩ := mem_deficientPositions.1 (hv k hkv)
    rw [hp] at hp'
    rw [hq] at hq'
    cases hp'
    cases hq'
    exact ⟨a, by rw [if_pos hkv, Ascending.mem_diff]; exact ha⟩
  · obtain ⟨a, ha⟩ := exists_mem_of_meets hm hp hq
    exact ⟨a, by rw [if_neg hkv, Ascending.mem_inter]; exact ha⟩

/-- A deviation at some position of the implementation does not overlap it. -/
theorem meets_deviation {s i : Signature} (h : s.arity = i.arity) {v : List Nat} {k : Nat}
    (hk : k ∈ v) (hki : k < i.arity) : (s.deviation i v).meets i = false := by
  rw [Bool.eq_false_iff]
  intro hm
  obtain ⟨tuple, hd, hi⟩ := (meets_iff_exists_accepts ((arity_deviation h v).trans h)).1 hm
  have hq : i.parameters[k]? = some i.parameters[k] := List.getElem?_eq_getElem hki
  obtain ⟨t, ht, hmem⟩ := hi.exists_getElem? hq
  exact ((accepts_deviation h).1 hd).2 k _ t hq ht |>.1 hmem hk

/-- The residuals are the deviations at the non-empty sets of deficient
positions. -/
theorem mem_residuals {s i t : Signature} :
    t ∈ s.residuals i ↔ ∃ v, v ≠ [] ∧ v.Sublist (s.deficientPositions i) ∧ t = s.deviation i v := by
  rw [residuals, List.mem_map]
  constructor
  · intro h
    obtain ⟨v, hv, rfl⟩ := h
    obtain ⟨hv, hne⟩ := List.mem_filter.1 hv
    refine ⟨v, ?_, mem_subsets.1 hv, rfl⟩
    rintro rfl
    cases hne
  · intro h
    obtain ⟨v, hne, hv, rfl⟩ := h
    refine ⟨v, List.mem_filter.2 ⟨mem_subsets.2 hv, ?_⟩, rfl⟩
    cases v with
    | nil => exact absurd rfl hne
    | cons k v => rfl

/-- A residual lies within its signature. -/
theorem residual_within {s i t : Signature} (h : s.arity = i.arity) (ht : t ∈ s.residuals i) :
    t.Within s := by
  obtain ⟨v, _, _, rfl⟩ := mem_residuals.1 ht
  exact deviation_within h v

/-- A residual under an overlapping implementation is inhabited. -/
theorem isInhabited_residual {s i t : Signature} (h : s.arity = i.arity)
    (hm : s.meets i = true) (ht : t ∈ s.residuals i) : t.isInhabited = true := by
  obtain ⟨v, _, hv, rfl⟩ := mem_residuals.1 ht
  exact isInhabited_deviation h hm fun k hk => hv.subset hk

/-- A residual under an overlapping implementation is not the whole
signature. -/
theorem residual_ne {s i t : Signature} (hm : s.meets i = true) (ht : t ∈ s.residuals i) :
    t ≠ s := by
  intro heq
  have hlt := size_residual_lt hm ht
  rw [heq] at hlt
  exact Nat.lt_irrefl s.size hlt

/-- A residual does not overlap the implementation that it deviates from. -/
theorem meets_residual {s i t : Signature} (h : s.arity = i.arity) (ht : t ∈ s.residuals i) :
    t.meets i = false := by
  obtain ⟨v, hne, hv, rfl⟩ := mem_residuals.1 ht
  obtain ⟨k, hk⟩ := List.exists_mem_of_ne_nil v hne
  obtain ⟨_, q, _, hq, _⟩ := mem_deficientPositions.1 (hv.subset hk)
  obtain ⟨hki, _⟩ := List.getElem?_eq_some_iff.1 hq
  exact meets_deviation h hk hki

/-- The positions at which a signature refuses the tag of a tuple. -/
def refusedPositions (i : Signature) (tuple : List Tag) : List Nat :=
  (List.range i.arity).filter fun k =>
    (i.parameters[k]?).any fun q => (tuple[k]?).any fun t => !q.contains t

/-- A tag is refused when its position has a set that lacks it. -/
theorem mem_refusedPositions {i : Signature} {tuple : List Tag} {k : Nat} :
    k ∈ i.refusedPositions tuple ↔ ∃ q t, i.parameters[k]? = some q ∧ tuple[k]? = some t ∧
      t ∉ q := by
  rw [refusedPositions, List.mem_filter, List.mem_range]
  simp only [Option.any_eq_true, Bool.not_eq_true', ← Bool.not_eq_true, Ascending.contains_iff]
  constructor
  · intro h
    obtain ⟨_, q, hq, t, ht, hne⟩ := h
    exact ⟨q, t, hq, ht, hne⟩
  · intro h
    obtain ⟨q, t, hq, ht, hne⟩ := h
    obtain ⟨hk, _⟩ := List.getElem?_eq_some_iff.1 hq
    exact ⟨hk, q, hq, t, ht, hne⟩

/-- A tuple of a signature lies in the part that deviates from an
implementation where the implementation refuses the tuple. -/
theorem accepts_deviation_refusedPositions {s i : Signature} (h : s.arity = i.arity)
    {tuple : List Tag} (hs : s.Accepts tuple) :
    (s.deviation i (i.refusedPositions tuple)).Accepts tuple := by
  refine (accepts_deviation h).2 ⟨hs, fun k q t hq ht => ?_⟩
  rw [mem_refusedPositions]
  constructor
  · intro hmem hrefused
    obtain ⟨q', t', hq', ht', hne⟩ := hrefused
    rw [hq] at hq'
    rw [ht] at ht'
    cases hq'
    cases ht'
    exact hne hmem
  · intro hne
    by_contra hmem
    exact hne ⟨q, t, hq, ht, hmem⟩

/-- Where an implementation refuses a tuple of a signature, it is
deficient. -/
theorem refusedPositions_sublist {s i : Signature} (h : s.arity = i.arity) {tuple : List Tag}
    (hs : s.Accepts tuple) : (i.refusedPositions tuple).Sublist (s.deficientPositions i) := by
  have harity : (s.excess i).arity = i.arity := by
    have hlen : s.parameters.length = i.parameters.length := h
    show (s.parameters.zipWith Ascending.diff i.parameters).length = i.parameters.length
    rw [List.length_zipWith]
    omega
  rw [refusedPositions, deficientPositions, harity]
  refine List.monotone_filter_right _ fun k hk => ?_
  simp only [Option.any_eq_true, Bool.not_eq_true', ← Bool.not_eq_true,
    Ascending.contains_iff] at hk
  obtain ⟨q, hq, t, ht, hne⟩ := hk
  obtain ⟨p, hp⟩ := exists_getElem?_of_arity_eq h.symm hq
  have htp : t ∈ p := (accepts_iff_getElem?.1 hs).2 k p t hp ht
  have hmem : k ∈ s.deficientPositions i :=
    mem_deficientPositions.2 ⟨p, q, hp, hq, t, htp, hne⟩
  exact (List.mem_filter.1 hmem).2

/-- Every tuple of a signature that an implementation refuses lies in a
residual. -/
theorem exists_residual_accepts {s i : Signature} (h : s.arity = i.arity) {tuple : List Tag}
    (hs : s.Accepts tuple) (hi : ¬ i.Accepts tuple) :
    ∃ t ∈ s.residuals i, t.Accepts tuple := by
  refine ⟨s.deviation i (i.refusedPositions tuple), mem_residuals.2 ⟨_, ?_,
    refusedPositions_sublist h hs, rfl⟩, accepts_deviation_refusedPositions h hs⟩
  intro hnil
  refine hi (accepts_iff_getElem?.2 ⟨hs.length_eq.trans h, fun k q t hq ht => ?_⟩)
  by_contra hne
  have hmem : k ∈ i.refusedPositions tuple := mem_refusedPositions.2 ⟨q, t, hq, ht, hne⟩
  rw [hnil] at hmem
  exact List.not_mem_nil hmem

/-- A signature leaves no residual under itself. -/
theorem not_mem_residuals_self (s t : Signature) : t ∉ s.residuals s := by
  intro ht
  obtain ⟨v, hne, hv, _⟩ := mem_residuals.1 ht
  obtain ⟨k, hk⟩ := List.exists_mem_of_ne_nil v hne
  obtain ⟨p, q, hp, hq, a, hap, haq⟩ := mem_deficientPositions.1 (hv.subset hk)
  rw [hp] at hq
  cases hq
  exact haq hap

/-- A signature overlaps itself exactly when it is inhabited. -/
theorem meets_self_eq (s : Signature) : s.meets s = s.isInhabited := by
  rw [Bool.eq_iff_iff, meets_iff_exists_accepts rfl, isInhabited_iff]
  simp only [and_self]

/-- An inhabited signature overlaps itself. -/
theorem meets_self {s : Signature} (h : s.isInhabited = true) : s.meets s = true := by
  rw [meets_self_eq, h]

end DispatchCoverage.Signature

import Mathlib.Data.Fin.Basic
import Mathlib.Data.Set.List
import Mathlib.Logic.Equiv.Basic
import DispatchCoverage.Proofs.Exactness
import DispatchCoverage.Proofs.Symmetry

/-!
# Names of tags and order of parameters do not matter

Tags are only ever compared for equality, and the positions of a signature are
all treated alike. So a map of tags that is injective on the tags in use,
together with a permutation of the positions, is a symmetry of the analysis:
at every position the sets of the relabelled signatures are the images of the
sets of the original ones at the position that was moved there. Solving the
relabelled problem gives the relabelled outcome.
-/

namespace DispatchCoverage

namespace Signature

/-- The set at a position, which is empty beyond the last one. -/
def setAt (s : Signature) (k : Nat) : TypeSet := s.parameters[k]?.getD ∅

/-- The signature with every tag replaced by its image. -/
def rename (f : Tag → Tag) (s : Signature) : Signature := ⟨s.parameters.map (Ascending.map f)⟩

/-- The signature with its parameters reordered: the one at position k moves to
the position that the permutation gives for k. -/
def rearrange {n : Nat} (σ : Equiv.Perm (Fin n)) (s : Signature) : Signature :=
  ⟨List.ofFn fun k => s.setAt (σ.symm k)⟩

/-- The signature with its tags renamed and its parameters reordered. -/
def relabel {n : Nat} (f : Tag → Tag) (σ : Equiv.Perm (Fin n)) (s : Signature) : Signature :=
  (s.rename f).rearrange σ

/-- Whether a tag occurs at some position. -/
def HasTag (s : Signature) (a : Tag) : Prop := ∃ p ∈ s.parameters, a ∈ p

/-- The signatures of some arity whose tags are among the given ones. -/
def withTags (n : Nat) (tags : Set Tag) : Set Signature :=
  {s | s.arity = n ∧ ∀ a, s.HasTag a → a ∈ tags}

section Positions

variable {n : Nat} {s i : Signature}

/-- The set at a position of the signature. -/
theorem getElem?_eq_setAt {k : Nat} (hk : k < s.arity) : s.parameters[k]? = some (s.setAt k) := by
  have hsome : s.parameters[k]? = some s.parameters[k] := List.getElem?_eq_getElem hk
  rw [setAt, hsome, Option.getD_some]

/-- Signatures of one arity are equal when they have the same sets. -/
theorem ext_setAt (hs : s.arity = n) (hi : i.arity = n)
    (h : ∀ k : Fin n, s.setAt k = i.setAt k) : s = i := by
  refine parameters_injective (List.ext_getElem? fun k => ?_)
  by_cases hk : k < n
  · rw [getElem?_eq_setAt (hs ▸ hk), getElem?_eq_setAt (hi ▸ hk), h ⟨k, hk⟩]
  · have hsk : s.parameters.length ≤ k := Nat.not_lt.1 fun hlt => hk (hs ▸ hlt)
    have hik : i.parameters.length ≤ k := Nat.not_lt.1 fun hlt => hk (hi ▸ hlt)
    rw [List.getElem?_eq_none hsk, List.getElem?_eq_none hik]

/-- Signatures of one arity meet when their sets meet at every position. -/
theorem meets_iff_setAt (hs : s.arity = n) (hi : i.arity = n) :
    s.meets i = true ↔ ∀ k : Fin n, (s.setAt k).meets (i.setAt k) = true := by
  constructor
  · intro h k
    exact Ascending.meets_iff.2 (exists_mem_of_meets h (getElem?_eq_setAt (hs ▸ k.isLt))
      (getElem?_eq_setAt (hi ▸ k.isLt)))
  · intro h
    refine List.all_eq_true.2 fun pq hpq => ?_
    obtain ⟨k, hk⟩ := List.mem_iff_getElem?.1 hpq
    obtain ⟨hp, hq⟩ := List.getElem?_zip_eq_some.1 hk
    obtain ⟨hlt, _⟩ := List.getElem?_eq_some_iff.1 hp
    rw [getElem?_eq_setAt hlt] at hp
    rw [getElem?_eq_setAt (hi.symm ▸ hs ▸ hlt)] at hq
    have hmeets := h ⟨k, hs ▸ hlt⟩
    rw [Option.some.inj hp, Option.some.inj hq] at hmeets
    exact hmeets

/-- A deviation has the lacking tags at a chosen position. -/
theorem setAt_deviation_of_mem (hs : s.arity = n) (hi : i.arity = n) {v : List (Fin n)}
    {k : Fin n} (hk : k ∈ v) :
    (s.deviation i (v.map Fin.val)).setAt k = (s.setAt k).diff (i.setAt k) := by
  rw [setAt, getElem?_deviation (getElem?_eq_setAt (hs ▸ k.isLt))
    (getElem?_eq_setAt (hi ▸ k.isLt)), if_pos (List.mem_map_of_mem hk), Option.getD_some]

/-- A deviation has the common tags at any other position. -/
theorem setAt_deviation_of_not_mem (hs : s.arity = n) (hi : i.arity = n) {v : List (Fin n)}
    {k : Fin n} (hk : k ∉ v) :
    (s.deviation i (v.map Fin.val)).setAt k = (s.setAt k).inter (i.setAt k) := by
  have hmem : (k : Nat) ∉ v.map Fin.val :=
    fun h => hk ((List.mem_map_of_injective Fin.val_injective).1 h)
  rw [setAt, getElem?_deviation (getElem?_eq_setAt (hs ▸ k.isLt))
    (getElem?_eq_setAt (hi ▸ k.isLt)), if_neg hmem, Option.getD_some]

/-- A deviation depends on which positions are chosen only. -/
theorem deviation_congr (s i : Signature) {v w : List Nat} (h : ∀ k, k ∈ v ↔ k ∈ w) :
    s.deviation i v = s.deviation i w := by
  refine parameters_injective (List.ext_getElem? fun k => ?_)
  rw [deviation, deviation, getElem?_copyFrom, getElem?_copyFrom]
  simp only [h]

/-- The residuals are the deviations at any non-empty choice of positions where
the implementation lacks a tag. -/
theorem mem_residuals_iff_setAt (hs : s.arity = n) (hi : i.arity = n) {t : Signature} :
    t ∈ s.residuals i ↔ ∃ v : List (Fin n), v ≠ [] ∧
      (∀ k ∈ v, ((s.setAt k).diff (i.setAt k)).isEmpty = false) ∧
      t = s.deviation i (v.map Fin.val) := by
  have hdeficient : ∀ k : Fin n, (k : Nat) ∈ s.deficientPositions i ↔
      ((s.setAt k).diff (i.setAt k)).isEmpty = false := by
    intro k
    rw [mem_deficientPositions, Ascending.isEmpty_eq_false_iff,
      getElem?_eq_setAt (hs ▸ k.isLt), getElem?_eq_setAt (hi ▸ k.isLt)]
    simp
  rw [mem_residuals]
  constructor
  · intro h
    obtain ⟨v, hne, hv, rfl⟩ := h
    have hlt : ∀ k ∈ v, k < n :=
      fun k hk => hs ▸ lt_arity_of_mem_deficientPositions (hv.subset hk)
    lift v to List (Fin n) using hlt
    refine ⟨v, fun hnil => hne (by rw [hnil, List.map_nil]), fun k hk => ?_, rfl⟩
    exact (hdeficient k).1 (hv.subset (List.mem_map_of_mem hk))
  · intro h
    obtain ⟨v, hne, hv, rfl⟩ := h
    -- The positions of a residual are listed in ascending order, once each.
    have hall : ∀ k ∈ v.map Fin.val, k ∈ s.deficientPositions i := by
      intro k hk
      obtain ⟨j, hj, rfl⟩ := List.mem_map.1 hk
      exact (hdeficient j).2 (hv j hj)
    have hsame : ∀ k, k ∈ v.map Fin.val ↔
        k ∈ (s.deficientPositions i).filter (· ∈ v.map Fin.val) := by
      intro k
      rw [List.mem_filter, decide_eq_true_eq]
      exact (and_iff_right_of_imp (hall k)).symm
    refine ⟨_, fun hnil => ?_, List.filter_sublist, deviation_congr s i hsame⟩
    obtain ⟨j, hj⟩ := List.exists_mem_of_ne_nil v hne
    have hmem := (hsame j).1 (List.mem_map_of_mem hj)
    rw [hnil] at hmem
    exact List.not_mem_nil hmem

/-- A tag at a position is a tag of the signature. -/
theorem hasTag_of_mem_setAt {k : Nat} {a : Tag} (ha : a ∈ s.setAt k) : s.HasTag a := by
  rw [setAt] at ha
  cases hp : s.parameters[k]? with
  | none =>
    rw [hp] at ha
    exact absurd ha (Ascending.not_mem_empty a)
  | some p =>
    rw [hp] at ha
    exact ⟨p, List.mem_of_getElem? hp, ha⟩

/-- The tags at a position of a signature are among those of its domain. -/
theorem tags_setAt {tags : Set Tag} (hs : s ∈ withTags n tags) (k : Nat) :
    ∀ a ∈ s.setAt k, a ∈ tags :=
  fun a ha => hs.2 a (hasTag_of_mem_setAt ha)

/-- What is within a signature has no other tags. -/
theorem Within.hasTag {t : Signature} (h : t.Within s) {a : Tag} (ha : t.HasTag a) :
    s.HasTag a := by
  obtain ⟨p, hp, hap⟩ := ha
  obtain ⟨k, hk⟩ := List.mem_iff_getElem?.1 hp
  obtain ⟨q, hq⟩ := exists_getElem?_of_arity_eq h.1 hk
  exact ⟨q, List.mem_of_getElem? hq, (within_iff_getElem?.1 h).2 k p q hk hq a hap⟩

end Positions

section Relabel

variable {n : Nat} {f : Tag → Tag} {tags : Set Tag} {s i : Signature}

/-- A relabelled signature has as many parameters as there are positions. -/
@[simp] theorem arity_relabel (f : Tag → Tag) (σ : Equiv.Perm (Fin n)) (s : Signature) :
    (s.relabel f σ).arity = n :=
  List.length_ofFn

/-- A relabelled signature has, where a position is moved to, the image of the
set at the position. -/
theorem setAt_relabel (f : Tag → Tag) (σ : Equiv.Perm (Fin n)) (s : Signature) (k : Fin n) :
    (s.relabel f σ).setAt (σ k) = (s.setAt k).map f := by
  have hmoved : (s.relabel f σ).setAt (σ k) = (s.rename f).setAt (σ.symm (σ k)) := by
    rw [relabel, rearrange, setAt, List.getElem?_ofFn, dif_pos (σ k).isLt, Option.getD_some]
  rw [hmoved, Equiv.symm_apply_apply, setAt, setAt, rename, List.getElem?_map]
  cases s.parameters[(k : Nat)]? with
  | none => rfl
  | some p => rfl

variable (hf : tags.InjOn f) (σ : Equiv.Perm (Fin n)) (hs : s ∈ withTags n tags)
  (hi : i ∈ withTags n tags)
include hf hs hi

/-- No two signatures are relabelled to the same one. -/
theorem relabel_injOn (h : s.relabel f σ = i.relabel f σ) : s = i := by
  refine ext_setAt hs.1 hi.1 fun k => ?_
  have himages : (s.setAt k).map f = (i.setAt k).map f := by
    rw [← setAt_relabel f σ, ← setAt_relabel f σ, h]
  exact Ascending.map_injOn hf (tags_setAt hs k) (tags_setAt hi k) himages

/-- Relabelled signatures meet exactly when the signatures do. -/
theorem meets_relabel : (s.relabel f σ).meets (i.relabel f σ) = s.meets i := by
  rw [Bool.eq_iff_iff, meets_iff_setAt (arity_relabel f σ s) (arity_relabel f σ i),
    meets_iff_setAt hs.1 hi.1, ← σ.forall_congr_right]
  refine forall_congr' fun k => ?_
  rw [setAt_relabel, setAt_relabel, Ascending.meets_map hf (tags_setAt hs k) (tags_setAt hi k)]

/-- What relabelled signatures lack at a position is the image of what the
signatures lack at the position that was moved there. -/
theorem diff_setAt_relabel (k : Fin n) :
    ((s.relabel f σ).setAt (σ k)).diff ((i.relabel f σ).setAt (σ k)) =
      ((s.setAt k).diff (i.setAt k)).map f := by
  rw [setAt_relabel, setAt_relabel, Ascending.map_diff hf (tags_setAt hs k) (tags_setAt hi k)]

/-- The deviation of relabelled signatures at moved positions is the relabelled
deviation. -/
theorem deviation_relabel (v : List (Fin n)) :
    (s.relabel f σ).deviation (i.relabel f σ) ((v.map σ).map Fin.val) =
      (s.deviation i (v.map Fin.val)).relabel f σ := by
  have hs' : (s.relabel f σ).arity = n := arity_relabel f σ s
  have hi' : (i.relabel f σ).arity = n := arity_relabel f σ i
  have hleft : ((s.relabel f σ).deviation (i.relabel f σ) ((v.map σ).map Fin.val)).arity = n :=
    (arity_deviation (hs'.trans hi'.symm) _).trans hs'
  refine ext_setAt hleft (arity_relabel f σ _) (σ.forall_congr_right.1 fun k => ?_)
  have hmem : σ k ∈ v.map σ ↔ k ∈ v := List.mem_map_of_injective σ.injective
  rw [setAt_relabel f σ (s.deviation i _)]
  by_cases hk : k ∈ v
  · rw [setAt_deviation_of_mem hs' hi' (hmem.2 hk), setAt_deviation_of_mem hs.1 hi.1 hk,
      diff_setAt_relabel hf σ hs hi]
  · rw [setAt_deviation_of_not_mem hs' hi' (mt hmem.1 hk),
      setAt_deviation_of_not_mem hs.1 hi.1 hk, setAt_relabel, setAt_relabel,
      Ascending.map_inter hf (tags_setAt hs k) (tags_setAt hi k)]

/-- The residuals of relabelled signatures are the relabelled residuals. -/
theorem mem_residuals_relabel {u : Signature} :
    u ∈ (s.relabel f σ).residuals (i.relabel f σ) ↔ ∃ t ∈ s.residuals i, t.relabel f σ = u := by
  have hlacks : ∀ k : Fin n,
      (((s.relabel f σ).setAt (σ k)).diff ((i.relabel f σ).setAt (σ k))).isEmpty =
        ((s.setAt k).diff (i.setAt k)).isEmpty := by
    intro k
    rw [diff_setAt_relabel hf σ hs hi, Ascending.isEmpty_map]
  rw [mem_residuals_iff_setAt (arity_relabel f σ s) (arity_relabel f σ i)]
  constructor
  · intro h
    obtain ⟨w, hne, hw, rfl⟩ := h
    -- Every position is one that some position was moved to.
    obtain ⟨v, rfl⟩ : ∃ v, v.map σ = w := ⟨w.map σ.symm, by simp⟩
    refine ⟨s.deviation i (v.map Fin.val), (mem_residuals_iff_setAt hs.1 hi.1).2
      ⟨v, fun hnil => hne (by rw [hnil, List.map_nil]), fun k hk => ?_, rfl⟩,
      (deviation_relabel hf σ hs hi v).symm⟩
    rw [← hlacks]
    exact hw (σ k) (List.mem_map_of_mem hk)
  · intro h
    obtain ⟨t, ht, rfl⟩ := h
    obtain ⟨v, hne, hv, rfl⟩ := (mem_residuals_iff_setAt hs.1 hi.1).1 ht
    refine ⟨v.map σ, fun hnil => hne (List.map_eq_nil_iff.1 hnil), fun j hj => ?_,
      (deviation_relabel hf σ hs hi v).symm⟩
    obtain ⟨k, hk, rfl⟩ := List.mem_map.1 hj
    rw [hlacks]
    exact hv k hk

omit hs hi in
/-- Relabelling is a symmetry on the signatures with the tags on which the
renaming is injective. -/
theorem isSymmetry_relabel : IsSymmetry (withTags n tags) (relabel f σ) where
  injOn _ hs _ hi h := relabel_injOn hf σ hs hi h
  arity_eq s hs := (arity_relabel f σ s).trans hs.1.symm
  meets_eq _ hs _ hi := meets_relabel hf σ hs hi
  mem_domain s hs i hi t ht := by
    have hwithin : t.Within s := residual_within (hs.1.trans hi.1.symm) ht
    exact ⟨hwithin.1.trans hs.1, fun a ha => hs.2 a (hwithin.hasTag ha)⟩
  mem_residuals _ hs _ hi _ := mem_residuals_relabel hf σ hs hi

end Relabel

end Signature

namespace Solver

/-- Solving commutes with renaming tags and reordering parameters. A map of
tags that is injective on the tags of the interface and of the implementations,
with a permutation of the positions, leads to the same outcome for the images:
the images of the leaves, or the budget used up with the images of the leaves
and of the frontier, after as many rounds. -/
theorem solve_relabel {solver : Solver} {interface : Signature}
    (harity : ∀ i ∈ solver.implementations, i.arity = interface.arity) {f : Tag → Tag}
    (hf : Set.InjOn f {a | ∃ s ∈ interface :: solver.implementations, s.HasTag a})
    (σ : Equiv.Perm (Fin interface.arity)) :
    (solver.map (Signature.relabel f σ)).solve (interface.relabel f σ) =
      (solver.solve interface).map (Signature.relabel f σ) := by
  have hdomain : ∀ s ∈ interface :: solver.implementations, s ∈ Signature.withTags interface.arity
      {a | ∃ s ∈ interface :: solver.implementations, s.HasTag a} := by
    intro s hs
    refine ⟨?_, fun a ha => ⟨s, hs, ha⟩⟩
    rcases List.mem_cons.1 hs with rfl | hi
    · rfl
    · exact harity s hi
  exact (Signature.isSymmetry_relabel hf σ).solve_map harity
    (hdomain interface List.mem_cons_self)
    fun i hi => hdomain i (List.mem_cons_of_mem interface hi)

/-- The renaming that writes C for A, which identifies these two tags. -/
def writeC (t : Tag) : Tag :=
  if t ∈ Signature.letters ['A'] then .atom ⟨"C", by decide⟩ else t

/-- Among tags other than C, writing C for A identifies no two tags. -/
theorem writeC_injOn : Set.InjOn writeC {t | t ∉ Signature.letters ['C']} := by
  have hnone : ∀ t ∉ Signature.letters ['C'], t ≠ .atom ⟨"C", by decide⟩ :=
    fun t ht heq => ht (heq ▸ List.mem_singleton.2 rfl)
  intro s hs t ht heq
  rw [writeC, writeC] at heq
  by_cases hsA : s ∈ Signature.letters ['A']
  · by_cases htA : t ∈ Signature.letters ['A']
    · exact (List.mem_singleton.1 hsA).trans (List.mem_singleton.1 htA).symm
    · rw [if_pos hsA, if_neg htA] at heq
      exact absurd heq.symm (hnone t ht)
  · by_cases htA : t ∈ Signature.letters ['A']
    · rw [if_neg hsA, if_pos htA] at heq
      exact absurd heq (hnone s hs)
    · rw [if_neg hsA, if_neg htA] at heq
      exact heq

/-- With its two columns exchanged and C for A, which does not occur in it, the
square has the same two corners uncovered. -/
theorem solve_relabel_square :
    let σ : Equiv.Perm (Fin square.arity) := Equiv.swap ⟨0, by decide⟩ ⟨1, by decide⟩
    (∀ i ∈ (corners none).implementations, i.arity = square.arity) ∧
      Set.InjOn writeC {a | ∃ s ∈ square :: (corners none).implementations, s.HasTag a} ∧
      (((corners none).map (.relabel writeC σ)).solve (square.relabel writeC σ)).result =
        .ok (.ofList [.ofLetters [['Y'], ['C']], .ofLetters [['X'], ['B']]]) := by
  intro σ
  have harity : ∀ i ∈ (corners none).implementations, i.arity = square.arity := by decide
  have htags : ∀ s ∈ square :: (corners none).implementations, ∀ p ∈ s.parameters,
      ∀ a ∈ p.toList, a ∉ Signature.letters ['C'] := by decide +kernel
  have hf : Set.InjOn writeC
      {a | ∃ s ∈ square :: (corners none).implementations, s.HasTag a} := by
    refine writeC_injOn.mono fun a ha => ?_
    obtain ⟨s, hs, p, hp, hap⟩ := ha
    exact htags s hs p hp a hap
  refine ⟨harity, hf, ?_⟩
  rw [solve_relabel harity hf σ]
  decide +kernel

end Solver

end DispatchCoverage

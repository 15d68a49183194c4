import DispatchCoverage.Proofs.Deviation
import DispatchCoverage.Proofs.Results

/-!
# Positions and indices

An index addresses a position of a signature from the front or, if it is negative,
from the end, so that every position has two indices. A substitution fails exactly if
some index addresses no position; otherwise it copies the sets at the addressed
positions, and only the set of these positions matters. Indices that are not negative
are the positions themselves.
-/

namespace DispatchCoverage

namespace Signature

variable {s other : Signature} {n k : Nat} {i : Int} {is js : List Int}

/-- Whether an index addresses none of some positions. -/
def IsBeyond (n : Nat) (i : Int) : Prop := i < -(n : Int) ∨ (n : Int) ≤ i

/-- An index addresses a position by its distance from the front or from the end. -/
theorem position_eq_some_iff : position n i = some k ↔ k < n ∧ (i = k ∨ i = k - n) := by
  unfold position
  split_ifs <;> simp only [Option.some.injEq, false_iff] <;> omega

/-- An index beyond the positions addresses none. -/
theorem position_eq_none_iff : position n i = none ↔ IsBeyond n i := by
  unfold position IsBeyond
  split_ifs <;> simp only [true_iff, false_iff] <;> omega

/-- The positions that some indices address. -/
def positions (n : Nat) (is : List Int) : List Nat := is.filterMap (position n)

/-- A position is addressed by either of its indices. -/
theorem mem_positions : k ∈ positions n is ↔ k < n ∧ ((k : Int) ∈ is ∨ (k : Int) - n ∈ is) := by
  simp only [positions, List.mem_filterMap, position_eq_some_iff]
  constructor
  · rintro ⟨i, hi, hk, rfl | rfl⟩
    · exact ⟨hk, .inl hi⟩
    · exact ⟨hk, .inr hi⟩
  · rintro ⟨hk, hi | hi⟩
    · exact ⟨_, hi, hk, .inl rfl⟩
    · exact ⟨_, hi, hk, .inr rfl⟩

/-- The position that an index addresses, or the error that it addresses none. -/
def checkIndex (n : Nat) (i : Int) : Except SubstitutionError Nat :=
  match position n i with
  | some k => .ok k
  | none => .error (.outOfRange i)

/-- A check of indices passes, with the positions that they address, if none of them
is beyond the positions. -/
theorem mapM_checkIndex (h : ∀ i ∈ is, ¬IsBeyond n i) :
    is.mapM (checkIndex n) = .ok (positions n is) := by
  induction is with
  | nil => rfl
  | cons i is ih =>
    obtain ⟨hi, his⟩ := List.forall_mem_cons.1 h
    obtain ⟨k, hk⟩ := Option.ne_none_iff_exists'.1 (mt position_eq_none_iff.1 hi)
    have hcheck : checkIndex n i = .ok k := by rw [checkIndex, hk]
    have hpositions : positions n (i :: is) = k :: positions n is :=
      List.filterMap_cons_some hk
    rw [List.mapM_cons, hcheck, ih his, hpositions]
    rfl

/-- A check of indices fails for no reason but an index that addresses no
position. -/
theorem exists_of_mapM_checkIndex {e : SubstitutionError}
    (h : is.mapM (checkIndex n) = .error e) : ∃ i, e = .outOfRange i := by
  obtain ⟨_, i, _, _, -, -, hi⟩ := mapM_eq_error_iff.1 h
  unfold checkIndex at hi
  split at hi
  · cases hi
  · exact ⟨i, (Except.error.inj hi).symm⟩

/-- A check of indices fails if one of them is beyond the positions. -/
theorem mapM_checkIndex_of_beyond (hi : i ∈ is) (hbeyond : IsBeyond n i) :
    ∃ j, is.mapM (checkIndex n) = .error (.outOfRange j) := by
  cases h : is.mapM (checkIndex n) with
  | ok v =>
    obtain ⟨k, hk⟩ := exists_ok_of_mapM h hi
    rw [checkIndex, position_eq_none_iff.2 hbeyond] at hk
    cases hk
  | error e =>
    obtain ⟨j, rfl⟩ := exists_of_mapM_checkIndex h
    exact ⟨j, rfl⟩

/-- A substitution checks the indices and copies the addressed positions. -/
theorem substitute_eq (h : s.arity = other.arity) (is : List Int) :
    s.substitute is other = (is.mapM (checkIndex s.arity)).map (copyFrom other s) := by
  have hchecked : (s.checkArity other).mapError SubstitutionError.arity = .ok () := by
    rw [checkArity, if_pos h]
    rfl
  rw [substitute, hchecked]
  show (is.mapM (checkIndex s.arity)).bind _ = _
  cases is.mapM (checkIndex s.arity) <;> rfl

/-- The set of a substituted signature at a position comes from the other signature if
the position is addressed. -/
theorem getElem?_copyFrom_positions (h : s.arity = other.arity) (hk : k < s.arity) :
    (copyFrom other s (positions s.arity is)).parameters[k]? =
      if (k : Int) ∈ is ∨ (k : Int) - s.arity ∈ is then other.parameters[k]?
      else s.parameters[k]? := by
  have hset : s.parameters[k]? = some s.parameters[k] := List.getElem?_eq_getElem hk
  have hk' : k < other.arity := h ▸ hk
  have hother : other.parameters[k]? = some other.parameters[k] := List.getElem?_eq_getElem hk'
  simp only [getElem?_copyFrom, mem_positions, hk, true_and, hset, hother, Option.map_some,
    Option.getD_some]

/-- Copying two lots of positions from one signature is copying all of them. -/
theorem copyFrom_copyFrom (other s : Signature) (v w : List Nat) :
    copyFrom other (copyFrom other s v) w = copyFrom other s (v ++ w) :=
  List.foldl_append.symm

/-- Only which positions are copied matters. -/
theorem copyFrom_congr (other s : Signature) {v w : List Nat} (h : ∀ k, k ∈ v ↔ k ∈ w) :
    copyFrom other s v = copyFrom other s w :=
  parameters_injective (List.ext_getElem? fun k => by simp only [getElem?_copyFrom, h k])

/-- Numbers of positions, taken as indices, address these positions. -/
theorem positions_natCast {v : List Nat} (h : ∀ k ∈ v, k < n) : positions n (v.map Nat.cast) = v := by
  have hposition : ∀ k ∈ v, (position n ∘ Nat.cast) k = some k := fun k hk =>
    position_eq_some_iff.2 ⟨h k hk, .inl rfl⟩
  rw [positions, List.filterMap_map, List.filterMap_congr hposition, List.filterMap_some]

/-- Substitution at positions of a signature copies them from another one of
the same arity. -/
theorem substitute_natCast (h : s.arity = other.arity) {v : List Nat}
    (hv : ∀ k ∈ v, k < s.arity) :
    s.substitute (v.map Nat.cast) other = .ok (copyFrom other s v) := by
  have hwithin : ∀ i ∈ v.map Nat.cast, ¬IsBeyond s.arity i := by
    intro i hi hbeyond
    obtain ⟨k, hk, rfl⟩ := List.mem_map.1 hi
    have hlt := hv k hk
    unfold IsBeyond at hbeyond
    omega
  rw [substitute_eq h, mapM_checkIndex hwithin, positions_natCast hv]
  rfl

end Signature

end DispatchCoverage

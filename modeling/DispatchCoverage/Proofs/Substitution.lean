import DispatchCoverage.Proofs.Positions
import DispatchCoverage.Value.Session

/-!
# Substitution by index

A substitution that is called with a list of indices fails exactly if some index
addresses no position; otherwise it takes the sets at the addressed positions from
the other signature. So only the set of the indices matters, and two substitutions
from the same signature, one after the other, are one. Both signatures are only read:
a session that keeps them keeps them as they were, and the result as an object of its
own.
-/

namespace DispatchCoverage

open Signature

variable {s u other : Signature} {i : Int} {is js : List Int}

namespace Value

/-- A substitution as it is called, with a list of indices. -/
def substitution (s : Signature) (is : List Int) (other : Signature) : Except Fault Value :=
  call "substitute" [.signature s, .list (is.map .int), .signature other]

/-- All of a list of integers are integers. -/
theorem leadingIntegers_map_int (is : List Int) : leadingIntegers (is.map .int) = is := by
  induction is with
  | nil => rfl
  | cons i is ih => simp only [List.map_cons, leadingIntegers, integer?, ih]

/-- A call of a substitution between signatures of one arity carries it out. -/
theorem substitution_eq (h : s.arity = other.arity) (is : List Int) :
    substitution s is other =
      match is.mapM (checkIndex s.arity) with
      | .ok v => .ok (.signature (copyFrom other s v))
      | .error _ => .error .outOfRange := by
  have hchecked : (s.checkArity other).mapError Fault.arity = .ok () := by
    rw [Signature.checkArity, if_pos h]
    rfl
  have hlength : is.length = (is.map Value.int).length := (List.length_map _).symm
  have hcall : substitution s is other =
      Value.substitute s (.list (is.map .int)) (.signature other) := rfl
  have hother : asSignature (.signature other) = .ok other := rfl
  have hitems : items (.list (is.map .int)) = .ok (is.map .int) := rfl
  simp only [hcall, Value.substitute, hother, hchecked, hitems, leadingIntegers_map_int,
    substitute_eq h, bind, Except.bind]
  cases hcheck : is.mapM (checkIndex s.arity) with
  | ok v => exact if_pos hlength
  | error e =>
    obtain ⟨i, rfl⟩ := exists_of_mapM_checkIndex hcheck
    rfl

/-- Indices that are not beyond the positions are substituted at. -/
theorem substitution_eq_ok (h : s.arity = other.arity) (his : ∀ i ∈ is, ¬IsBeyond s.arity i) :
    substitution s is other = .ok (.signature (copyFrom other s (positions s.arity is))) := by
  rw [substitution_eq h, mapM_checkIndex his]

/-- A substitution fails for an index beyond the positions. -/
theorem substitution_eq_error_iff (h : s.arity = other.arity) :
    substitution s is other = .error .outOfRange ↔ ∃ i ∈ is, IsBeyond s.arity i := by
  constructor
  · intro herror
    by_contra hnone
    rw [substitution_eq_ok h fun i hi hbeyond => hnone ⟨i, hi, hbeyond⟩] at herror
    cases herror
  · rintro ⟨i, hi, hbeyond⟩
    obtain ⟨j, hj⟩ := mapM_checkIndex_of_beyond hi hbeyond
    rw [substitution_eq h, hj]

/-- Only which indices are given matters. -/
theorem substitution_congr (h : s.arity = other.arity) (hsame : ∀ i, i ∈ is ↔ i ∈ js) :
    substitution s is other = substitution s js other := by
  by_cases hbeyond : ∃ i ∈ is, IsBeyond s.arity i
  · have hbeyond' : ∃ i ∈ js, IsBeyond s.arity i :=
      hbeyond.imp fun i hi => ⟨(hsame i).1 hi.1, hi.2⟩
    rw [(substitution_eq_error_iff h).2 hbeyond, (substitution_eq_error_iff h).2 hbeyond']
  · have his : ∀ i ∈ is, ¬IsBeyond s.arity i := fun i hi hi' => hbeyond ⟨i, hi, hi'⟩
    have hjs : ∀ i ∈ js, ¬IsBeyond s.arity i := fun i hi => his i ((hsame i).2 hi)
    rw [substitution_eq_ok h his, substitution_eq_ok h hjs]
    refine congrArg (fun u => Except.ok (signature u)) (copyFrom_congr other s fun k => ?_)
    simp only [mem_positions, hsame]

/-- Substituting twice from one signature is substituting once with all indices. -/
theorem substitution_append (h : s.arity = other.arity)
    (hu : substitution s is other = .ok (.signature u)) (js : List Int) :
    substitution u js other = substitution s (is ++ js) other := by
  have his : ∀ i ∈ is, ¬IsBeyond s.arity i := by
    intro i hi hbeyond
    rw [(substitution_eq_error_iff h).2 ⟨i, hi, hbeyond⟩] at hu
    cases hu
  have hcopy : copyFrom other s (positions s.arity is) = u := by
    rw [substitution_eq_ok h his] at hu
    cases hu
    rfl
  have harity : u.arity = s.arity := by rw [← hcopy, arity_copyFrom]
  by_cases hbeyond : ∃ j ∈ js, IsBeyond s.arity j
  · obtain ⟨j, hj, hj'⟩ := hbeyond
    rw [(substitution_eq_error_iff h).2 ⟨j, List.mem_append_right is hj, hj'⟩,
      (substitution_eq_error_iff (harity.trans h)).2 ⟨j, hj, by rwa [harity]⟩]
  · have hjs : ∀ j ∈ js, ¬IsBeyond s.arity j := fun j hj hj' => hbeyond ⟨j, hj, hj'⟩
    have hboth : positions s.arity (is ++ js) = positions s.arity is ++ positions s.arity js :=
      List.filterMap_append
    rw [substitution_eq_ok (harity.trans h) (by rwa [harity]), harity, ← hcopy, copyFrom_copyFrom,
      ← hboth, substitution_eq_ok h (List.forall_mem_append.2 ⟨his, hjs⟩)]

end Value

namespace Session

variable {session later : Session} {x y z r : Kept}

/-- What has the members of an alternation is no signature. -/
theorem unionOf_ne_signature (members : Value) : unionOf members ≠ .signature s := by
  unfold unionOf
  split <;> (try split) <;> exact Value.noConfusion

/-- A signature is kept as a value or as an object. -/
theorem view_eq_signature_iff :
    session.view x = .signature s ↔
      x = .value (.signature s) ∨ ∃ k, x = .object k ∧ session.objects[k]? = some (.signature s) := by
  cases x with
  | value v => simp
  | object k =>
    cases hn : session.objects.length with
    | zero => simp [view, viewWithin, hn]
    | succ n =>
      simp only [view, hn, viewWithin]
      cases hk : session.objects[k]? with
      | none => simp [hk]
      | some object => cases object <;> simp [hk, unionOf_ne_signature]

/-- A session that keeps one object more. -/
def extended (session : Session) (object : SharedObject) : Session :=
  { session with objects := session.objects ++ [object] }

/-- A signature that is kept is kept along with one object more. -/
theorem view_extended (hx : session.view x = .signature s) (object : SharedObject) :
    (session.extended object).view x = .signature s := by
  refine view_eq_signature_iff.2 ((view_eq_signature_iff.1 hx).imp_right ?_)
  rintro ⟨k, rfl, hk⟩
  obtain ⟨hlt, -⟩ := List.getElem?_eq_some_iff.1 hk
  exact ⟨k, rfl, (List.getElem?_append_left hlt).trans hk⟩

/-- The object that a session keeps more is seen as the signature that it is. -/
theorem view_extended_self (session : Session) (u : Signature) :
    (session.extended (.signature u)).view (.object session.objects.length) = .signature u :=
  view_eq_signature_iff.2 (.inr ⟨_, rfl, List.getElem?_concat_length⟩)

/-- What a substitution returns is kept, or handed to the object that it was asked of. -/
def keepSubstitution (rest : List Kept) (result : Value) :
    Option (Nat × SharedObject) → Operation
  | some (number, object) => callOnObject "substitute" number object rest [] result
  | none => keep result

/-- A substitution that is called on what is kept adds the result to the objects. -/
theorem run_call_substitute (hx : session.view x = .signature s)
    (hy : session.view y = .list (is.map .int)) (hz : session.view z = .signature other)
    (hresult : Value.substitution s is other = .ok (.signature u)) :
    (call "substitute" [x, y, z]).run session =
      .ok (.object session.objects.length, session.extended (.signature u)) := by
  have hcall : Value.call "substitute" ([x, y, z].map session.view) = .ok (.signature u) := by
    rw [List.map_cons, List.map_cons, List.map_cons, hx, hy, hz]
    exact hresult
  have hrun : (call "substitute" [x, y, z]).run session =
      (keepSubstitution [y, z] (.signature u) (session.object? x)).run session := by
    unfold call
    simp only [StateT.run_bind, StateT.run_get, pure_bind, hcall]
    rfl
  rw [hrun]
  obtain rfl | ⟨k, rfl, hk⟩ := view_eq_signature_iff.1 hx
  · rfl
  · rw [object?, hk]
    rfl

end Session

/-- Substitution by index, for signatures of one arity. It fails, as an index that
addresses no position, exactly if some index is beyond the positions. Otherwise the
result has the arity of the signatures, and at each position the set of the other
signature if one of the two indices of the position is given, and the set of the first
one if not. Neither the order of the indices nor repetitions matter; two
substitutions from the same signature are one with the indices of both; and where the
signatures are kept, they stay what they are. -/
theorem substitution_by_index (h : s.arity = other.arity) (is : List Int) :
    (Value.substitution s is other = .error .outOfRange ↔
      ∃ i ∈ is, i < -(s.arity : Int) ∨ (s.arity : Int) ≤ i) ∧
    ((∀ i ∈ is, -(s.arity : Int) ≤ i ∧ i < s.arity) →
      ∃ u, Value.substitution s is other = .ok (.signature u) ∧ u.arity = s.arity ∧
        ∀ k < s.arity, u.parameters[k]? =
          if (k : Int) ∈ is ∨ (k : Int) - s.arity ∈ is then other.parameters[k]?
          else s.parameters[k]?) ∧
    (∀ js, (∀ i, i ∈ is ↔ i ∈ js) →
      Value.substitution s is other = Value.substitution s js other) ∧
    ∀ u, Value.substitution s is other = .ok (.signature u) →
      (∀ js, Value.substitution u js other = Value.substitution s (is ++ js) other) ∧
      ∀ (session : Session) (x y z : Kept), session.view x = .signature s →
        session.view y = .list (is.map .int) → session.view z = .signature other →
        ∃ r later, (Session.call "substitute" [x, y, z]).run session = .ok (r, later) ∧
          later.view r = .signature u ∧ later.view x = .signature s ∧
          later.view z = .signature other ∧ later.named = session.named := by
  refine ⟨Value.substitution_eq_error_iff h, fun his => ?_, fun js => Value.substitution_congr h,
    fun u hu => ⟨Value.substitution_append h hu, fun session x y z hx hy hz => ?_⟩⟩
  · have hwithin : ∀ i ∈ is, ¬IsBeyond s.arity i := by
      intro i hi hbeyond
      have := his i hi
      unfold IsBeyond at hbeyond
      omega
    exact ⟨_, Value.substitution_eq_ok h hwithin, arity_copyFrom _ _ _,
      fun k hk => getElem?_copyFrom_positions h hk⟩
  · exact ⟨_, _, Session.run_call_substitute hx hy hz hu, Session.view_extended_self session u,
      Session.view_extended hx _, Session.view_extended hz _, rfl⟩

/-- Of three positions the first one is addressed twice, from either end, and the last
one from the end, in any order. The set in between stays, and so does the signature itself
where it is kept; an index of three is beyond the positions. -/
theorem substitution_by_index_twice :
    let s := ofLetters [['A'], ['B'], ['C', 'D']]
    let other := ofLetters [['X', 'Y'], ['Z'], []]
    let session : Session := { objects := [.signature s, .list ([0, -3, -1].map (.value ∘ .int))] }
    s.arity = other.arity ∧
      (∃ u, Value.substitution s [0, -3, -1] other = .ok (.signature u) ∧
        u.parameters[0]? = other.parameters[0]? ∧ u.parameters[1]? = s.parameters[1]? ∧
        u.parameters[2]? = other.parameters[2]? ∧
        Value.substitution s [-1, 0, -3, 0] other = .ok (.signature u) ∧
        Value.substitution u [1] other = Value.substitution s [0, -3, -1, 1] other ∧
        ∃ r later, (Session.call "substitute"
            [.object 0, .object 1, .value (.signature other)]).run session = .ok (r, later) ∧
          later.view r = .signature u ∧ later.view (.object 0) = .signature s) ∧
      Value.substitution s [0, 3] other = .error .outOfRange := by
  intro s other session
  have harity : s.arity = other.arity := rfl
  obtain ⟨-, hwithin, hsame, hnext⟩ := substitution_by_index harity [0, -3, -1]
  obtain ⟨hbeyond, -⟩ := substitution_by_index harity [0, 3]
  obtain ⟨u, hu, -, hsets⟩ := hwithin (by decide)
  obtain ⟨hlater, hkept⟩ := hnext u hu
  obtain ⟨r, later, hrun, hr, hs, -⟩ := hkept session (.object 0) (.object 1)
    (.value (.signature other)) rfl rfl rfl
  exact ⟨harity, ⟨u, hu, hsets 0 (by decide), hsets 1 (by decide), hsets 2 (by decide),
    (hsame [-1, 0, -3, 0] (by simp; omega)).symm.trans hu, hlater [1], r, later, hrun, hr, hs⟩,
    hbeyond.2 ⟨3, by decide, by decide⟩⟩

end DispatchCoverage

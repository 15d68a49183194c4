import DispatchCoverage.Proofs.Deviation

/-!
# The operations on signatures and the regions that they describe

Overlap and intersection say of two signatures just what holds of their
regions. An inhabited signature is determined by its region, as a tag belongs to
one of its sets exactly if putting the tag into an accepted tuple gives an
accepted tuple. Signatures that differ in arity are refused by every operation
that combines two of them, before anything else is looked at.
-/

namespace DispatchCoverage.Signature

variable {s t : Signature}

/-- A tag put into an accepted tuple gives an accepted tuple exactly if it belongs
to the set at its position. -/
theorem Accepts.set_iff {tuple : List Tag} (h : s.Accepts tuple) {k : Nat} {p : TypeSet}
    (hp : s.parameters[k]? = some p) {a : Tag} : s.Accepts (tuple.set k a) ↔ a ∈ p := by
  obtain ⟨hk, _⟩ := List.getElem?_eq_some_iff.1 hp
  have hlength : tuple.length = s.parameters.length := h.length_eq
  have hput : (tuple.set k a)[k]? = some a := List.getElem?_set_self (by omega)
  rw [accepts_iff_getElem?]
  refine ⟨fun hset => hset.2 k p a hp hput, fun ha => ⟨?_, fun j q b hq hb => ?_⟩⟩
  · rw [List.length_set]
    exact h.length_eq
  · by_cases hjk : k = j
    · subst hjk
      rw [hput] at hb
      rw [hp] at hq
      cases hb
      cases hq
      exact ha
    · rw [List.getElem?_set_ne hjk] at hb
      exact (accepts_iff_getElem?.1 h).2 j q b hq hb

/-- An inhabited signature is within another one exactly if the other accepts all
that it accepts. -/
theorem within_iff_accepts (h : s.isInhabited = true) :
    s.Within t ↔ ∀ tuple, s.Accepts tuple → t.Accepts tuple := by
  refine ⟨fun hwithin tuple => hwithin.accepts, fun hall => ?_⟩
  obtain ⟨tuple, htuple⟩ := isInhabited_iff.1 h
  have hother : t.Accepts tuple := hall tuple htuple
  have harity : s.arity = t.arity := htuple.length_eq.symm.trans hother.length_eq
  refine within_iff_getElem?.2 ⟨harity, fun k p q hp hq a ha => ?_⟩
  have hset : s.Accepts (tuple.set k a) := (htuple.set_iff hp).2 ha
  exact (hother.set_iff hq).1 (hall _ hset)

/-- Signatures that are within each other are equal. -/
theorem Within.antisymm (h : s.Within t) (h' : t.Within s) : s = t := by
  refine parameters_injective (List.ext_getElem h.1 fun k hk hk' => ?_)
  have hp : s.parameters[k]? = some s.parameters[k] := List.getElem?_eq_getElem hk
  have hq : t.parameters[k]? = some t.parameters[k] := List.getElem?_eq_getElem hk'
  exact Ascending.ext_mem fun a =>
    ⟨(within_iff_getElem?.1 h).2 k _ _ hp hq a, (within_iff_getElem?.1 h').2 k _ _ hq hp a⟩

/-- Inhabited signatures that accept the same tuples are equal. -/
theorem eq_of_accepts_iff (hs : s.isInhabited = true) (ht : t.isInhabited = true)
    (h : ∀ tuple, s.Accepts tuple ↔ t.Accepts tuple) : s = t :=
  ((within_iff_accepts hs).2 fun tuple => (h tuple).1).antisymm
    ((within_iff_accepts ht).2 fun tuple => (h tuple).2)

/-- Signatures of one arity have an intersection. -/
theorem intersection_eq_ok (h : s.arity = t.arity) : s.intersection t = .ok (s.meet t) := by
  rw [intersection, checkArity, if_pos h]
  rfl

/-- An operation that begins by comparing the arities refuses signatures that differ
in arity, whatever it would do next. -/
theorem checkArity_bind_of_ne {α : Type} (h : s.arity ≠ t.arity)
    (next : Unit → Except ArityMismatch α) : (s.checkArity t).bind next = .error ⟨s, t⟩ := by
  rw [checkArity, if_neg h]
  rfl

/-- The operations on signatures describe their regions. Two signatures of one arity
overlap exactly if some tuple is accepted by both, and exactly if their intersection
is inhabited; the intersection accepts the tuples that both accept. A signature is
inhabited exactly if it accepts some tuple, and inhabited signatures that accept the
same tuples are equal. Signatures that differ in arity are refused with an error that
names both, whatever positions a substitution is given. -/
theorem operations_faithful (s t : Signature) :
    (s.arity = t.arity →
      (∃ answer, s.overlaps t = .ok answer ∧
        (answer = true ↔ ∃ tuple, s.Accepts tuple ∧ t.Accepts tuple)) ∧
      ∃ common, s.intersection t = .ok common ∧
        (s.overlaps t = .ok true ↔ common.isInhabited = true) ∧
        ∀ tuple, common.Accepts tuple ↔ s.Accepts tuple ∧ t.Accepts tuple) ∧
    (s.isInhabited = true ↔ ∃ tuple, s.Accepts tuple) ∧
    (s.isInhabited = true → t.isInhabited = true →
      (∀ tuple, s.Accepts tuple ↔ t.Accepts tuple) → s = t) ∧
    (s.arity ≠ t.arity →
      s.overlaps t = .error ⟨s, t⟩ ∧ s.intersection t = .error ⟨s, t⟩ ∧
      s.positionalDifference t = .error ⟨s, t⟩ ∧
      ∀ indices, s.substitute indices t = .error (.arity ⟨s, t⟩)) := by
  refine ⟨fun h => ⟨⟨s.meets t, overlaps_eq_ok h, meets_iff_exists_accepts h⟩, s.meet t,
    intersection_eq_ok h, ?_, fun tuple => accepts_meet h⟩, isInhabited_iff, eq_of_accepts_iff,
    fun h => ⟨checkArity_bind_of_ne h _, checkArity_bind_of_ne h _, checkArity_bind_of_ne h _,
      fun indices => ?_⟩⟩
  · rw [overlaps_eq_ok_iff, meets_eq_isInhabited_meet]
    exact and_iff_right h
  · rw [substitute, checkArity, if_neg h]
    rfl

/-- Two signatures that overlap in one tuple. A third one has another arity, so a
substitution from it is refused although there is no position to substitute at. -/
theorem operations_faithful_crossing :
    let row := ofLetters [['A', 'B'], ['X']]
    let column := ofLetters [['A'], ['X', 'Y']]
    let narrow := ofLetters [['A']]
    row.overlaps column = .ok true ∧
      row.intersection column = .ok (ofLetters [['A'], ['X']]) ∧
      row.isInhabited = true ∧ row ≠ column ∧
      row.substitute [7] narrow = .error (.arity ⟨row, narrow⟩) := by
  intro row column narrow
  have hcommon : row.intersection column = .ok (ofLetters [['A'], ['X']]) := by decide +kernel
  have hrow : row.Accepts (letters ['A', 'X']) := by decide +kernel
  have hcolumn : column.Accepts (letters ['A', 'X']) := by decide +kernel
  obtain ⟨hsame, hinhabited, _, _⟩ := operations_faithful row column
  obtain ⟨_, _, _, hother⟩ := operations_faithful row narrow
  obtain ⟨⟨answer, hanswer, hoverlap⟩, _⟩ := hsame (by decide)
  have hyes : answer = true := hoverlap.2 ⟨_, hrow, hcolumn⟩
  refine ⟨hyes ▸ hanswer, hcommon, hinhabited.2 ⟨_, hrow⟩, by decide +kernel, ?_⟩
  exact (hother (by decide)).2.2.2 [7]

end DispatchCoverage.Signature

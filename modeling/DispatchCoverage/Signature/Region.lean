import DispatchCoverage.Signature

/-!
# The region of a signature

A signature accepts the tuples of tags that have a member of the k-th set at
every position k. The operations on signatures are described by the tuples
they accept: a signature is inhabited when it accepts some tuple, two
signatures of one arity meet when they accept a common tuple, and their meet
accepts the common tuples.
-/

namespace DispatchCoverage

/-- Whether the tags of a tuple are members of some sets, position by
position. -/
def AcceptsAll : List TypeSet → List Tag → Prop
  | [], [] => True
  | p :: ps, t :: ts => t ∈ p ∧ AcceptsAll ps ts
  | _, _ => False

/-- Acceptance by sets can be decided. -/
def decideAcceptsAll : (ps : List TypeSet) → (ts : List Tag) → Decidable (AcceptsAll ps ts)
  | [], [] => .isTrue trivial
  | p :: ps, t :: ts =>
    let _ := decideAcceptsAll ps ts
    inferInstanceAs (Decidable (t ∈ p ∧ AcceptsAll ps ts))
  | [], _ :: _ => .isFalse id
  | _ :: _, [] => .isFalse id

instance (ps : List TypeSet) (ts : List Tag) : Decidable (AcceptsAll ps ts) :=
  decideAcceptsAll ps ts

namespace Signature

/-- Whether a tuple of tags lies in the region of a signature. -/
def Accepts (s : Signature) (tuple : List Tag) : Prop := AcceptsAll s.parameters tuple

instance (s : Signature) (tuple : List Tag) : Decidable (s.Accepts tuple) :=
  inferInstanceAs (Decidable (AcceptsAll _ _))

/-- Whether a signature has, position by position, no tag that another
signature of the same arity lacks. -/
def Within (s t : Signature) : Prop :=
  s.arity = t.arity ∧ ∀ pq ∈ s.parameters.zip t.parameters, ∀ a ∈ pq.1, a ∈ pq.2

end Signature

/-- A tuple that is accepted has one tag for every set. -/
theorem AcceptsAll.length_eq {ps : List TypeSet} {ts : List Tag} (h : AcceptsAll ps ts) :
    ts.length = ps.length := by
  induction ps generalizing ts with
  | nil => cases ts with
    | nil => rfl
    | cons t ts => exact h.elim
  | cons p ps ih => cases ts with
    | nil => exact h.elim
    | cons t ts => simp [ih h.2]

/-- A tuple is accepted when the lengths agree and the k-th tag is in the k-th
set. -/
theorem acceptsAll_iff_getElem? {ps : List TypeSet} {ts : List Tag} :
    AcceptsAll ps ts ↔ ts.length = ps.length ∧
      ∀ (k : Nat) p t, ps[k]? = some p → ts[k]? = some t → t ∈ p := by
  induction ps generalizing ts with
  | nil => cases ts <;> simp [AcceptsAll]
  | cons p ps ih => cases ts with
    | nil => simp [AcceptsAll]
    | cons t ts =>
      simp only [AcceptsAll, ih, List.length_cons, Nat.add_right_cancel_iff]
      constructor
      · rintro ⟨ht, hl, h⟩
        refine ⟨hl, fun k q u hq hu => ?_⟩
        cases k with
        | zero => simp_all
        | succ k => exact h k q u (by simpa using hq) (by simpa using hu)
      · rintro ⟨hl, h⟩
        exact ⟨h 0 p t rfl rfl, hl, fun k q u hq hu => h (k + 1) q u (by simpa using hq)
          (by simpa using hu)⟩

/-- The positionwise intersections accept what both lists of sets accept. -/
theorem acceptsAll_zipWith_inter {ps qs : List TypeSet} {ts : List Tag}
    (h : ps.length = qs.length) :
    AcceptsAll (ps.zipWith Ascending.inter qs) ts ↔ AcceptsAll ps ts ∧ AcceptsAll qs ts := by
  induction ps generalizing qs ts with
  | nil => cases qs with
    | nil => simp
    | cons q qs => simp at h
  | cons p ps ih => cases qs with
    | nil => simp at h
    | cons q qs => cases ts with
      | nil => simp [AcceptsAll]
      | cons t ts =>
        simp only [List.zipWith_cons_cons, AcceptsAll, Ascending.mem_inter,
          ih (by simpa using h)]
        grind

/-- Some tuple is accepted exactly when no set is empty. -/
theorem exists_acceptsAll_iff {ps : List TypeSet} :
    (∃ ts, AcceptsAll ps ts) ↔ ∀ p ∈ ps, p.isEmpty = false := by
  induction ps with
  | nil => exact ⟨fun _ _ h => absurd h List.not_mem_nil, fun _ => ⟨[], trivial⟩⟩
  | cons p ps ih =>
    rw [List.forall_mem_cons, ← ih, Ascending.isEmpty_eq_false_iff]
    constructor
    · rintro ⟨ts, h⟩
      cases ts with
      | nil => exact h.elim
      | cons t ts => exact ⟨⟨t, h.1⟩, ts, h.2⟩
    · rintro ⟨⟨t, ht⟩, ts, h⟩
      exact ⟨t :: ts, ht, h⟩

namespace Signature

/-- An accepted tuple has one tag for every parameter. -/
theorem Accepts.length_eq {s : Signature} {tuple : List Tag} (h : s.Accepts tuple) :
    tuple.length = s.arity :=
  AcceptsAll.length_eq h

/-- The meet of two signatures of one arity accepts the common tuples. -/
theorem accepts_meet {s t : Signature} {tuple : List Tag} (h : s.arity = t.arity) :
    (s.meet t).Accepts tuple ↔ s.Accepts tuple ∧ t.Accepts tuple :=
  acceptsAll_zipWith_inter h

/-- A signature is inhabited exactly when it accepts some tuple. -/
theorem isInhabited_iff {s : Signature} : s.isInhabited = true ↔ ∃ tuple, s.Accepts tuple := by
  simp only [Accepts, exists_acceptsAll_iff, isInhabited, List.all_eq_true, Bool.not_eq_true']

/-- Two signatures of one arity meet exactly when their meet is inhabited. -/
theorem meets_eq_isInhabited_meet {s t : Signature} : s.meets t = (s.meet t).isInhabited := by
  obtain ⟨ps⟩ := s
  obtain ⟨qs⟩ := t
  show (ps.zip qs).all _ = (ps.zipWith Ascending.inter qs).all _
  induction ps generalizing qs with
  | nil => rfl
  | cons p ps ih => cases qs with
    | nil => rfl
    | cons q qs =>
      rw [List.zip_cons_cons, List.zipWith_cons_cons, List.all_cons, List.all_cons, ih qs]
      exact congrArg (· && _) (p.meets_eq_not_isEmpty_inter q)

/-- A signature within another one accepts no tuple that the other refuses. -/
theorem Within.accepts {s t : Signature} {tuple : List Tag} (h : s.Within t)
    (ha : s.Accepts tuple) : t.Accepts tuple := by
  obtain ⟨ps⟩ := s
  obtain ⟨qs⟩ := t
  obtain ⟨hl, h⟩ := h
  change ps.length = qs.length at hl
  change ∀ pq ∈ ps.zip qs, _ at h
  change AcceptsAll ps tuple at ha
  show AcceptsAll qs tuple
  induction ps generalizing qs tuple with
  | nil => cases qs with
    | nil => exact ha
    | cons q qs => simp at hl
  | cons p ps ih => cases qs with
    | nil => simp at hl
    | cons q qs => cases tuple with
      | nil => exact ha.elim
      | cons a tuple =>
        exact ⟨h (p, q) List.mem_cons_self a ha.1,
          ih qs (by simpa using hl) (fun pq hpq => h pq (List.mem_cons_of_mem _ hpq)) ha.2⟩

end Signature

end DispatchCoverage

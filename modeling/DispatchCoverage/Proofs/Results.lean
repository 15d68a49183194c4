import Mathlib.Data.List.Forall2

/-!
# Results of steps that can fail

Steps are carried out one after the other and end at the first that fails. So
several steps have a value exactly if each of them has one, and an error exactly
if one of them has it behind others that have values.
-/

namespace DispatchCoverage

variable {α β ε : Type}

/-- A mapped result is a value exactly if the result is. -/
theorem map_eq_ok_iff {r : Except ε α} {f : α → β} {b : β} :
    r.map f = .ok b ↔ ∃ a, r = .ok a ∧ f a = b := by
  cases r <;> simp [Except.map]

/-- A mapped result is an error exactly if the result is that error. -/
theorem map_eq_error_iff {r : Except ε α} {f : α → β} {e : ε} :
    r.map f = .error e ↔ r = .error e := by
  cases r <;> simp [Except.map]

/-- A step with a next one succeeds if both do. -/
theorem bind_eq_ok_iff {first : Except ε α} {next : α → Except ε β} {b : β} :
    first.bind next = .ok b ↔ ∃ a, first = .ok a ∧ next a = .ok b := by
  cases first <;> simp [Except.bind]

/-- A step with a next one fails if it does, or if the next one does behind it. -/
theorem bind_eq_error_iff {first : Except ε α} {next : α → Except ε β} {e : ε} :
    first.bind next = .error e ↔ first = .error e ∨ ∃ a, first = .ok a ∧ next a = .error e := by
  cases first <;> simp [Except.bind]

variable {f : α → Except ε β} {as : List α}

/-- A step for each item of a list succeeds if every one does. -/
theorem mapM_eq_ok_iff {bs : List β} :
    as.mapM f = .ok bs ↔ List.Forall₂ (fun a b => f a = .ok b) as bs := by
  induction as generalizing bs with
  | nil =>
    rw [List.mapM_nil, List.forall₂_nil_left_iff]
    exact ⟨fun h => (Except.ok.inj h).symm, fun h => congrArg Except.ok h.symm⟩
  | cons a as ih =>
    rw [List.mapM_cons, List.forall₂_cons_left_iff]
    simp only [bind, pure, Except.pure, bind_eq_ok_iff, ih]
    constructor
    · rintro ⟨b, hb, later, hlater, hbs⟩
      cases hbs
      exact ⟨b, later, hb, hlater, rfl⟩
    · rintro ⟨b, later, hb, hlater, rfl⟩
      exact ⟨b, hb, later, hlater, rfl⟩

/-- When items are related one by one, every one on the right is related to one on the
left. -/
theorem exists_mem_of_forall₂ {R : α → β → Prop} {bs : List β} {b : β}
    (h : List.Forall₂ R as bs) (hb : b ∈ bs) : ∃ a ∈ as, R a b := by
  induction h with
  | nil => exact absurd hb List.not_mem_nil
  | cons hitem _ ih =>
    rcases List.mem_cons.1 hb with rfl | hb
    · exact ⟨_, List.mem_cons_self, hitem⟩
    · exact (ih hb).imp fun _ h => ⟨List.mem_cons_of_mem _ h.1, h.2⟩

/-- When a step for each item of a list succeeds, that of every item does. -/
theorem exists_ok_of_mapM {bs : List β} (h : as.mapM f = .ok bs) {a : α} (ha : a ∈ as) :
    ∃ b, f a = .ok b :=
  (exists_mem_of_forall₂ (mapM_eq_ok_iff.1 h).flip ha).imp fun _ hb => hb.2

/-- A step for each item of a list fails if one does behind others that succeed. -/
theorem mapM_eq_error_iff {e : ε} :
    as.mapM f = .error e ↔ ∃ before a after bs, as = before ++ a :: after ∧
      List.Forall₂ (fun a b => f a = .ok b) before bs ∧ f a = .error e := by
  induction as with
  | nil =>
    rw [List.mapM_nil]
    refine ⟨fun h => (nomatch h), ?_⟩
    rintro ⟨before, a, after, _, hnil, _⟩
    exact absurd hnil (by simp)
  | cons a as ih =>
    rw [List.mapM_cons]
    simp only [bind, pure, Except.pure, bind_eq_error_iff, ih, reduceCtorEq, and_false,
      exists_false, or_false]
    constructor
    · rintro (ha | ⟨b, hb, before, c, after, bs, rfl, hbefore, hc⟩)
      · exact ⟨[], a, as, [], rfl, .nil, ha⟩
      · exact ⟨a :: before, c, after, b :: bs, rfl, .cons hb hbefore, hc⟩
    · rintro ⟨before, c, after, bs, has, hbefore, hc⟩
      cases before with
      | nil =>
        cases has
        exact .inl hc
      | cons a' before =>
        cases has
        obtain ⟨b, later, hb, hlater, rfl⟩ := List.forall₂_cons_left_iff.1 hbefore
        exact .inr ⟨b, hb, before, c, after, later, rfl, hlater, hc⟩

/-- When each step succeeds, the values are those of the steps. -/
theorem exists_mapM (h : ∀ a ∈ as, ∃ b, f a = .ok b) :
    ∃ bs, as.mapM f = .ok bs ∧ ∀ b, b ∈ bs ↔ ∃ a ∈ as, f a = .ok b := by
  induction as with
  | nil => exact ⟨[], rfl, by simp⟩
  | cons a as ih =>
    obtain ⟨⟨b, hb⟩, has⟩ := List.forall_mem_cons.1 h
    obtain ⟨bs, hbs, hmem⟩ := ih has
    refine ⟨b :: bs, by rw [List.mapM_cons, hb, hbs]; rfl, fun c => ?_⟩
    simp only [List.mem_cons, hmem, exists_eq_or_imp, hb, Except.ok.injEq, eq_comm (a := c)]

end DispatchCoverage

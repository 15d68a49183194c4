/-!
# Finite sets as ascending lists

A finite set over an ordered type is kept as the list of its members in
strictly ascending order. Every set has exactly one such list, so two sets
with the same members are equal, and listing a set needs no further rule for
the order. Each operation comes with the lemma that says what it does to
membership.
-/

namespace DispatchCoverage

/-- A finite set, kept as its members in strictly ascending order. -/
structure Ascending (α : Type) [Ord α] where
  /-- The members, smallest first. -/
  toList : List α
  /-- Every member precedes those that stand after it. -/
  ascending : toList.Pairwise (fun a b => compare a b = .lt)

namespace Ascending

variable {α β : Type} [Ord α] [Ord β]

/-- Membership in a set is membership in its list. -/
instance : Membership α (Ascending α) where
  mem s a := a ∈ s.toList

/-- Membership unfolds to the list of members. -/
theorem mem_def {s : Ascending α} {a : α} : a ∈ s ↔ a ∈ s.toList := Iff.rfl

/-- The set without members. -/
def empty : Ascending α := ⟨[], .nil⟩

instance : EmptyCollection (Ascending α) := ⟨empty⟩

instance : Inhabited (Ascending α) := ⟨∅⟩

/-- The list of the empty set is empty. -/
@[simp] theorem toList_empty : (∅ : Ascending α).toList = [] := rfl

/-- The empty set has no member. -/
@[simp] theorem not_mem_empty (a : α) : a ∉ (∅ : Ascending α) := List.not_mem_nil

/-- The number of members. -/
def size (s : Ascending α) : Nat := s.toList.length

/-- Whether the set has no member. -/
def isEmpty (s : Ascending α) : Bool := s.toList.isEmpty

/-- A set is empty exactly when it is the set without members. -/
theorem isEmpty_iff {s : Ascending α} : s.isEmpty = true ↔ s = ∅ := by
  obtain ⟨l, h⟩ := s
  cases l with
  | nil => exact ⟨fun _ => rfl, fun _ => rfl⟩
  | cons a r =>
    exact ⟨fun hn => Bool.noConfusion hn, fun hn =>
      absurd (congrArg toList hn) (List.cons_ne_nil a r)⟩

/-- A set is non-empty exactly when some value is a member. -/
theorem isEmpty_eq_false_iff {s : Ascending α} : s.isEmpty = false ↔ ∃ a, a ∈ s := by
  obtain ⟨l, h⟩ := s
  cases l with
  | nil => simp [isEmpty, mem_def]
  | cons a r => exact ⟨fun _ => ⟨a, List.mem_cons_self⟩, fun _ => rfl⟩

/-- The members that satisfy a test. -/
def filter (p : α → Bool) (s : Ascending α) : Ascending α :=
  ⟨s.toList.filter p, s.ascending.filter p⟩

/-- A filtered set holds the members that satisfy the test. -/
@[simp] theorem mem_filter {p : α → Bool} {s : Ascending α} {a : α} :
    a ∈ s.filter p ↔ a ∈ s ∧ p a = true :=
  List.mem_filter

/-- Whether a value is a member, by comparison with each of them. -/
def contains (s : Ascending α) (a : α) : Bool :=
  s.toList.any (fun b => compare a b == .eq)

/-- The members of the first set that belong to the second as well. -/
def inter (s t : Ascending α) : Ascending α := s.filter t.contains

/-- The members of the first set that do not belong to the second. -/
def diff (s t : Ascending α) : Ascending α := s.filter (fun a => !t.contains a)

/-- Whether some value belongs to both sets. -/
def meets (s t : Ascending α) : Bool := s.toList.any t.contains

/-- Whether every member of the first set belongs to the second. -/
def subset (s t : Ascending α) : Bool := s.toList.all t.contains

section Insertion

variable [Std.TransOrd α] [Std.LawfulEqOrd α]

/-- Put a value at its place in an ascending list that does not hold it yet. -/
def insertInto (a : α) : List α → List α
  | [] => [a]
  | b :: rest =>
    match compare a b with
    | .lt => a :: b :: rest
    | .eq => b :: rest
    | .gt => b :: insertInto a rest

omit [Std.TransOrd α] in
/-- Insertion adds the value and keeps the others. -/
theorem mem_insertInto {a b : α} {l : List α} : b ∈ insertInto a l ↔ b = a ∨ b ∈ l := by
  induction l with
  | nil => simp [insertInto]
  | cons c r ih =>
    unfold insertInto
    split
    · simp
    · rename_i h
      have h : a = c := Std.compare_eq_iff_eq.1 h
      subst h
      simp
    · simp only [List.mem_cons, ih]
      grind

/-- Insertion keeps a list ascending. -/
theorem pairwise_insertInto {a : α} {l : List α}
    (h : l.Pairwise (fun a b => compare a b = .lt)) :
    (insertInto a l).Pairwise (fun a b => compare a b = .lt) := by
  induction l with
  | nil => simp [insertInto]
  | cons c r ih =>
    obtain ⟨hc, hr⟩ := List.pairwise_cons.1 h
    unfold insertInto
    split
    · rename_i hlt
      refine List.pairwise_cons.2 ⟨fun d hd => ?_, h⟩
      rcases List.mem_cons.1 hd with rfl | hd
      · exact hlt
      · exact Std.TransCmp.lt_trans hlt (hc d hd)
    · exact h
    · rename_i hgt
      refine List.pairwise_cons.2 ⟨fun d hd => ?_, ih hr⟩
      rcases mem_insertInto.1 hd with rfl | hd
      · exact Std.OrientedCmp.gt_iff_lt.1 hgt
      · exact hc d hd

/-- Add one value to a set. -/
def insert (a : α) (s : Ascending α) : Ascending α :=
  ⟨insertInto a s.toList, pairwise_insertInto s.ascending⟩

/-- Insertion adds exactly one value. -/
@[simp] theorem mem_insert {a b : α} {s : Ascending α} : b ∈ s.insert a ↔ b = a ∨ b ∈ s :=
  mem_insertInto

/-- The set of the values in a list. -/
def ofList (l : List α) : Ascending α := l.foldr insert ∅

/-- The set of a list has the members of the list. -/
@[simp] theorem mem_ofList {l : List α} {a : α} : a ∈ ofList l ↔ a ∈ l := by
  induction l with
  | nil => simp [ofList]
  | cons b r ih => simp [ofList, ← ih]

/-- The values that belong to at least one of two sets. -/
def union (s t : Ascending α) : Ascending α := s.toList.foldr insert t

/-- A union holds the members of both sets. -/
@[simp] theorem mem_union {s t : Ascending α} {a : α} : a ∈ s.union t ↔ a ∈ s ∨ a ∈ t := by
  obtain ⟨l, h⟩ := s
  show a ∈ l.foldr insert t ↔ a ∈ l ∨ a ∈ t
  clear h
  induction l with
  | nil => simp
  | cons b r ih => simp [ih, or_assoc]

/-- The images of the members of a set. -/
def map (f : β → α) (s : Ascending β) : Ascending α := ofList (s.toList.map f)

/-- An image set holds the images of the members. -/
@[simp] theorem mem_map {f : β → α} {s : Ascending β} {a : α} :
    a ∈ s.map f ↔ ∃ b, b ∈ s ∧ f b = a := by
  simp only [map, mem_ofList, List.mem_map]
  rfl

end Insertion

section Membership

variable [Std.LawfulEqOrd α]

/-- The membership test answers membership. -/
@[simp] theorem contains_iff {s : Ascending α} {a : α} : s.contains a = true ↔ a ∈ s := by
  simp only [contains, List.any_eq_true, beq_iff_eq, Std.compare_eq_iff_eq]
  exact ⟨fun ⟨b, hb, h⟩ => h ▸ hb, fun h => ⟨a, h, rfl⟩⟩

instance (s : Ascending α) (a : α) : Decidable (a ∈ s) :=
  decidable_of_iff (s.contains a = true) contains_iff

/-- An intersection holds the common members. -/
@[simp] theorem mem_inter {s t : Ascending α} {a : α} : a ∈ s.inter t ↔ a ∈ s ∧ a ∈ t := by
  simp [inter]

/-- A difference holds the members of the first set that the second lacks. -/
@[simp] theorem mem_diff {s t : Ascending α} {a : α} : a ∈ s.diff t ↔ a ∈ s ∧ a ∉ t := by
  simp only [diff, mem_filter, ← contains_iff (s := t), Bool.not_eq_true, Bool.not_eq_eq_eq_not,
    Bool.not_true]

/-- Two sets meet exactly when they have a common member. -/
@[simp] theorem meets_iff {s t : Ascending α} : s.meets t = true ↔ ∃ a, a ∈ s ∧ a ∈ t := by
  simp [meets, mem_def]

/-- Two sets meet exactly when their intersection has a member. -/
theorem meets_eq_not_isEmpty_inter (s t : Ascending α) : s.meets t = !(s.inter t).isEmpty := by
  rw [Bool.eq_iff_iff, meets_iff, Bool.not_eq_true', isEmpty_eq_false_iff]
  simp only [mem_inter]

/-- Inclusion is inclusion of members. -/
@[simp] theorem subset_iff {s t : Ascending α} : s.subset t = true ↔ ∀ a, a ∈ s → a ∈ t := by
  simp [subset, mem_def]

end Membership

section Order

/-- Sets are ordered as their lists are: by the first member that differs,
a set that is a beginning of another one coming first. -/
instance : Ord (Ascending α) := ⟨compareOn toList⟩

/-- Comparing sets compares their lists. -/
theorem compare_def (s t : Ascending α) : compare s t = compare s.toList t.toList := rfl

instance [Std.TransOrd α] : Std.TransOrd (Ascending α) :=
  inferInstanceAs (Std.TransCmp (compareOn toList))

/-- A set is determined by its list. -/
theorem toList_injective {s t : Ascending α} (h : s.toList = t.toList) : s = t := by
  cases s; cases t; cases h; rfl

instance [Std.LawfulEqOrd α] : Std.LawfulEqOrd (Ascending α) where
  toReflCmp := inferInstanceAs (Std.ReflCmp (compareOn toList))
  eq_of_compare h := toList_injective (Std.LawfulEqCmp.eq_of_compare h)

instance [Std.LawfulEqOrd α] : DecidableEq (Ascending α) := fun _ _ =>
  decidable_of_iff _ Std.compare_eq_iff_eq

/-- No value precedes itself. -/
theorem not_lt_self [Std.LawfulEqOrd α] (a : α) : compare a a ≠ .lt := by
  rw [Std.compare_eq_iff_eq.2 rfl]
  exact Ordering.noConfusion

/-- An ascending list is determined by its members. -/
theorem eq_of_pairwise_of_mem [Std.TransOrd α] [Std.LawfulEqOrd α] :
    ∀ {l m : List α}, l.Pairwise (fun a b => compare a b = .lt) →
      m.Pairwise (fun a b => compare a b = .lt) → (∀ a, a ∈ l ↔ a ∈ m) → l = m
  | [], [], _, _, _ => rfl
  | [], b :: _, _, _, h => nomatch (h b).2 List.mem_cons_self
  | a :: _, [], _, _, h => nomatch (h a).1 List.mem_cons_self
  | a :: l, b :: m, hl, hm, h => by
    obtain ⟨ha, hl⟩ := List.pairwise_cons.1 hl
    have hb := (List.pairwise_cons.1 hm).1
    have hab : a = b := by
      rcases List.mem_cons.1 ((h a).1 List.mem_cons_self) with hab | hab
      · exact hab
      rcases List.mem_cons.1 ((h b).2 List.mem_cons_self) with hba | hba
      · exact hba.symm
      exact absurd (Std.TransCmp.lt_trans (ha b hba) (hb a hab)) (not_lt_self a)
    subst hab
    refine congrArg _ (eq_of_pairwise_of_mem hl hm.of_cons fun c => ⟨fun hc => ?_, fun hc => ?_⟩)
    · rcases List.mem_cons.1 ((h c).1 (List.mem_cons_of_mem _ hc)) with rfl | hc'
      · exact absurd (ha c hc) (not_lt_self c)
      · exact hc'
    · rcases List.mem_cons.1 ((h c).2 (List.mem_cons_of_mem _ hc)) with rfl | hc'
      · exact absurd (hb c hc) (not_lt_self c)
      · exact hc'

/-- Two sets with the same members are equal. -/
theorem ext_mem [Std.TransOrd α] [Std.LawfulEqOrd α] {s t : Ascending α}
    (h : ∀ a, a ∈ s ↔ a ∈ t) : s = t :=
  toList_injective (eq_of_pairwise_of_mem s.ascending t.ascending h)

end Order

/-- No member occurs twice in the list of a set. -/
theorem nodup_toList [Std.LawfulEqOrd α] (s : Ascending α) : s.toList.Nodup :=
  s.ascending.imp fun {a b} h hab => by
    subst hab
    exact not_lt_self a h

/-- A set is no larger than a list of its members. -/
theorem size_ofList_le [Std.TransOrd α] [Std.LawfulEqOrd α] (l : List α) :
    (ofList l).size ≤ l.length := by
  have hinto : ∀ (a : α) (m : List α), (insertInto a m).length ≤ m.length + 1 := by
    intro a m
    induction m with
    | nil => exact Nat.le_refl 1
    | cons b m ih =>
      unfold insertInto
      split
      · exact Nat.le_refl _
      · exact Nat.le_succ _
      · exact Nat.succ_le_succ ih
  induction l with
  | nil => exact Nat.le_refl 0
  | cons a l ih => exact Nat.le_trans (hinto a (ofList l).toList) (Nat.succ_le_succ ih)

/-- A part of a set is no larger than the set. -/
theorem size_filter_le (p : α → Bool) (s : Ascending α) : (s.filter p).size ≤ s.size :=
  List.length_filter_le p s.toList

/-- A part of a set is smaller than the set when it leaves out a member. -/
theorem size_filter_lt {p : α → Bool} {s : Ascending α} {a : α} (ha : a ∈ s)
    (hp : p a = false) : (s.filter p).size < s.size :=
  List.length_filter_lt_length_iff_exists.2 ⟨a, ha, by simp [hp]⟩

end Ascending

end DispatchCoverage

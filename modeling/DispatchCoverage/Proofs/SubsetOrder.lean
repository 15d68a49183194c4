import Mathlib.Data.Finset.Sort
import Mathlib.Data.List.FinRange
import Mathlib.Data.List.Shortlex
import Mathlib.Data.Nat.Choose.Sum
import DispatchCoverage.Subsets

/-!
# The order of the subsets

The subsets of a list of items are enumerated by their places: choosing items is
choosing places and taking what stands there. The places ascend, so every set of
places is chosen once, a smaller set before a larger one, and sets of one size in
lexicographic order. Which items are equal has no influence on this; it only decides
whether the enumeration repeats itself.
-/

namespace DispatchCoverage

variable {α : Type}

/-- Choosing from a list that is mapped is mapping what is chosen from it. -/
theorem choices_map {β : Type} (f : α → β) (n : Nat) (items : List α) :
    choices n (items.map f) = (choices n items).map (List.map f) := by
  induction items generalizing n with
  | nil => cases n <;> rfl
  | cons a rest ih =>
    cases n with
    | zero => rfl
    | succ n =>
      rw [List.map_cons, choices, choices, ih, ih, List.map_append, List.map_map, List.map_map]
      rfl

/-- The subsets of a list that is mapped are the subsets of the list, mapped. -/
theorem subsets_map {β : Type} (f : α → β) (items : List α) :
    subsets (items.map f) = (subsets items).map (List.map f) := by
  rw [subsets, subsets, List.length_map, List.map_flatMap]
  exact List.flatMap_congr fun n _ => choices_map f n items

/-- The number of choices of n items is the binomial coefficient. -/
theorem length_choices (n : Nat) (items : List α) :
    (choices n items).length = items.length.choose n := by
  induction items generalizing n with
  | nil => cases n <;> rfl
  | cons a rest ih =>
    cases n with
    | zero => rw [choices, List.length_singleton, Nat.choose_zero_right]
    | succ n =>
      rw [choices, List.length_append, List.length_map, ih, ih, List.length_cons,
        Nat.choose_succ_succ]

/-- There are as many subsets as there are ways to keep or to drop each item. -/
theorem length_subsets (items : List α) : (subsets items).length = 2 ^ items.length := by
  calc (subsets items).length
      = ((List.range (items.length + 1)).map fun n => (choices n items).length).sum :=
        List.length_flatMap
    _ = ((List.range (items.length + 1)).map items.length.choose).sum := by
        simp only [length_choices]
    _ = ∑ n ∈ Finset.range (items.length + 1), items.length.choose n := rfl
    _ = 2 ^ items.length := Nat.sum_range_choose items.length

/-- All items can be chosen in one way. -/
theorem choices_length (items : List α) : choices items.length items = [items] := by
  have hone : (choices items.length items).length = 1 := by
    rw [length_choices, Nat.choose_self]
  have hmem : items ∈ choices items.length items := mem_choices.2 ⟨List.Sublist.refl _, rfl⟩
  obtain ⟨v, hv⟩ := List.length_eq_one_iff.1 hone
  rw [hv, List.mem_singleton] at hmem
  rw [hv, hmem]

/-- The subsets end with the list itself, behind all its proper sublists. -/
theorem subsets_eq_append (items : List α) :
    ∃ front, subsets items = front ++ [items] ∧ ∀ v, v ∈ front ↔ v.Sublist items ∧ v ≠ items := by
  refine ⟨(List.range items.length).flatMap (choices · items), ?_, fun v => ?_⟩
  · rw [subsets, List.range_succ, List.flatMap_append, List.flatMap_singleton, choices_length]
  · rw [List.mem_flatMap]
    constructor
    · rintro ⟨n, hn, hv⟩
      obtain ⟨hsub, rfl⟩ := mem_choices.1 hv
      rw [List.mem_range] at hn
      exact ⟨hsub, fun h => absurd (congrArg List.length h) hn.ne⟩
    · rintro ⟨hsub, hne⟩
      have hlt : v.length < items.length :=
        lt_of_le_of_ne hsub.length_le fun h => hne (hsub.eq_of_length h)
      exact ⟨v.length, List.mem_range.2 hlt, mem_choices.2 ⟨hsub, rfl⟩⟩

/-- Of ascending items, the choices of n items are in lexicographic order. -/
theorem pairwise_choices [LT α] {items : List α} (h : items.Pairwise (· < ·)) (n : Nat) :
    (choices n items).Pairwise (List.Lex (· < ·)) := by
  induction items generalizing n with
  | nil =>
    cases n with
    | zero => exact List.pairwise_singleton _ _
    | succ n => exact .nil
  | cons a rest ih =>
    cases n with
    | zero => exact List.pairwise_singleton _ _
    | succ n =>
      obtain ⟨ha, hrest⟩ := List.pairwise_cons.1 h
      rw [choices, List.pairwise_append]
      refine ⟨List.pairwise_map.2 ((ih hrest n).imp .cons), ih hrest (n + 1), ?_⟩
      -- what is chosen with the first item comes before what is chosen without it
      intro v hv w hw
      obtain ⟨u, -, rfl⟩ := List.mem_map.1 hv
      obtain ⟨hsub, hlength⟩ := mem_choices.1 hw
      cases w with
      | nil => cases hlength
      | cons b w => exact .rel (ha b (hsub.subset List.mem_cons_self))

/-- Of ascending items, the subsets are in order of size and then in lexicographic
order. -/
theorem pairwise_subsets [LT α] {items : List α} (h : items.Pairwise (· < ·)) :
    (subsets items).Pairwise (List.Shortlex (· < ·)) := by
  rw [subsets, List.pairwise_flatMap]
  constructor
  · intro n _
    refine (pairwise_choices h n).imp_of_mem fun hv hw hlex => .of_lex ?_ hlex
    rw [(mem_choices.1 hv).2, (mem_choices.1 hw).2]
  · refine List.pairwise_lt_range.imp fun hlt v hv w hw => .of_length_lt ?_
    rwa [(mem_choices.1 hv).2, (mem_choices.1 hw).2]

/-- The sets of places of n items, as the subsets of the places list them. -/
def placeSets (n : Nat) : List (Finset (Fin n)) := (subsets (List.finRange n)).map List.toFinset

/-- The items at a set of places, in the order of the places. -/
def itemsAt (items : List α) (s : Finset (Fin items.length)) : List α := s.sort.map items.get

variable {n : Nat}

/-- A subset of the places is ascending. -/
theorem sort_toFinset_of_mem_subsets {v : List (Fin n)} (hv : v ∈ subsets (List.finRange n)) :
    v.toFinset.sort = v := by
  have hsub : v.Sublist (List.finRange n) := mem_subsets.1 hv
  refine (List.toFinset_sort _ (hsub.nodup (List.nodup_finRange n))).2 ?_
  exact (List.sortedLT_finRange n).sortedLE.pairwise.sublist hsub

/-- The sets of places, each one in ascending order, are the subsets of the places. -/
theorem map_sort_placeSets (n : Nat) :
    (placeSets n).map (·.sort) = subsets (List.finRange n) := by
  rw [placeSets, List.map_map]
  exact (List.map_congr_left fun v hv => sort_toFinset_of_mem_subsets hv).trans (List.map_id _)

/-- Every set of places is enumerated. -/
theorem mem_placeSets (s : Finset (Fin n)) : s ∈ placeSets n := by
  have hsubperm : s.sort.Subperm (List.finRange n) :=
    (s.sort_nodup _).subperm fun k _ => List.mem_finRange k
  have hsub : s.sort.Sublist (List.finRange n) :=
    List.sublist_of_subperm_of_pairwise hsubperm (s.pairwise_sort _)
      (List.sortedLT_finRange n).sortedLE.pairwise
  exact List.mem_map.2 ⟨s.sort, mem_subsets.2 hsub, s.sort_toFinset _⟩

/-- Sets of places are in order of size and then in lexicographic order. -/
theorem pairwise_placeSets (n : Nat) :
    (placeSets n).Pairwise fun s t => List.Shortlex (· < ·) s.sort t.sort := by
  rw [← List.pairwise_map, map_sort_placeSets]
  exact pairwise_subsets (List.sortedLT_finRange n).pairwise

/-- A set of places is smaller than a later one, or of its size and before it in
lexicographic order. -/
theorem pairwise_card_placeSets (n : Nat) :
    (placeSets n).Pairwise fun s t =>
      s.card < t.card ∨ s.card = t.card ∧ List.Lex (· < ·) s.sort t.sort := by
  refine (pairwise_placeSets n).imp fun hshortlex => ?_
  simpa only [List.shortlex_def, Finset.length_sort] using hshortlex

/-- No set of places is enumerated twice. -/
theorem nodup_placeSets (n : Nat) : (placeSets n).Nodup := by
  refine (pairwise_placeSets n).imp ?_
  rintro s _ hshortlex rfl
  exact irrefl _ hshortlex

/-- The subsets are the items at the sets of places. -/
theorem subsets_eq_map_placeSets (items : List α) :
    subsets items = (placeSets items.length).map (itemsAt items) := by
  calc subsets items
      = subsets ((List.finRange items.length).map items.get) := by rw [List.map_get_finRange]
    _ = ((placeSets items.length).map (·.sort)).map (List.map items.get) := by
        rw [subsets_map, map_sort_placeSets]
    _ = (placeSets items.length).map (itemsAt items) := List.map_map

/-- There are as many items at a set of places as there are places. -/
@[simp] theorem length_itemsAt (items : List α) (s : Finset (Fin items.length)) :
    (itemsAt items s).length = s.card := by
  rw [itemsAt, List.length_map, Finset.length_sort]

/-- A subset is at least as long as those in front of it. -/
theorem pairwise_length_subsets (items : List α) :
    (subsets items).Pairwise fun v w => v.length ≤ w.length := by
  rw [subsets_eq_map_placeSets, List.pairwise_map]
  refine (pairwise_card_placeSets _).imp fun horder => ?_
  rw [length_itemsAt, length_itemsAt]
  omega

/-- Different sets of places have different items exactly if no item stands at two
places. -/
theorem injective_itemsAt_iff {items : List α} :
    Function.Injective (itemsAt items) ↔ items.Nodup := by
  rw [List.nodup_iff_injective_get]
  constructor
  · intro h j k hjk
    have hsame : itemsAt items {j} = itemsAt items {k} := by
      rw [itemsAt, itemsAt, Finset.sort_singleton, Finset.sort_singleton, List.map_singleton,
        List.map_singleton, hjk]
    exact Finset.singleton_injective (h hsame)
  · intro h s t hst
    have hsort : s.sort = t.sort := List.map_injective_iff.2 h hst
    rw [← s.sort_toFinset (· ≤ ·), hsort, t.sort_toFinset]

/-- The subsets of a list are all different exactly if its items are. -/
theorem nodup_subsets_iff {items : List α} : (subsets items).Nodup ↔ items.Nodup := by
  rw [subsets_eq_map_placeSets, List.nodup_map_iff_inj_on (nodup_placeSets _),
    ← injective_itemsAt_iff]
  exact ⟨fun h s t => h s (mem_placeSets s) t (mem_placeSets t), fun h s _ t _ hst => h hst⟩

/-- A list of n items has `2 ^ n` subsets, one for each set of places, which holds the
items at these places in their order. The lengths do not decrease, and subsets of one
length are in lexicographic order of the places. So the subsets are the sublists of the
items, none of them twice if and only if the items are distinct, and the list of all
items comes last, behind its proper sublists. -/
theorem subsets_by_places (items : List α) :
    (subsets items).length = 2 ^ items.length ∧
    (∃ sets : List (Finset (Fin items.length)),
      subsets items = sets.map (itemsAt items) ∧ (∀ s, s ∈ sets) ∧ sets.Nodup ∧
        sets.Pairwise fun s t =>
          s.card < t.card ∨ s.card = t.card ∧ List.Lex (· < ·) s.sort t.sort) ∧
    (subsets items).Pairwise (fun v w => v.length ≤ w.length) ∧
    (∀ v, v ∈ subsets items ↔ v.Sublist items) ∧
    ((subsets items).Nodup ↔ items.Nodup) ∧
    ∃ front, subsets items = front ++ [items] ∧
      ∀ v, v ∈ front ↔ v.Sublist items ∧ v ≠ items := by
  have hplaces : subsets items = (placeSets items.length).map (itemsAt items) :=
    subsets_eq_map_placeSets items
  exact ⟨length_subsets items,
    ⟨placeSets items.length, hplaces, mem_placeSets, nodup_placeSets _,
      pairwise_card_placeSets _⟩,
    pairwise_length_subsets items, fun v => mem_subsets, nodup_subsets_iff,
    subsets_eq_append items⟩

example : subsets ['a', 'b', 'a'] =
    [[], ['a'], ['b'], ['a'], ['a', 'b'], ['a', 'a'], ['b', 'a'], ['a', 'b', 'a']] := by decide

end DispatchCoverage

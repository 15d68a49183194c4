import DispatchCoverage.Signature
import DispatchCoverage.Value.Operators

/-!
# Flattening of alternations

An alternation that is written with alternations inside holds the tags that are
written in it, at any depth, each where it first occurs. So the first occurrences in
texts side by side are those in the first occurrences of each of them, and it makes
no difference where the brackets of an alternation stand. Sets and signatures forget
the order too: they depend on nothing but which tags are written.
-/

namespace DispatchCoverage

section FirstOccurrences

variable {α : Type} [DecidableEq α] {a b c d : List α}

/-- Values stand in the order of their first occurrences. -/
theorem pairwise_firstOccurrences (l : List α) :
    (firstOccurrences l).Pairwise fun x y => l.idxOf x < l.idxOf y := by
  induction l with
  | nil => exact .nil
  | cons z rest ih =>
    have hlater {x : α} (hx : x ∈ (firstOccurrences rest).filter (· ≠ z)) :
        (z :: rest).idxOf x = rest.idxOf x + 1 := by
      have hne : x ≠ z := by simpa using (List.mem_filter.1 hx).2
      rw [List.idxOf_cons, beq_false_of_ne hne.symm]
      rfl
    refine List.pairwise_cons.2 ⟨fun x hx => ?_, ?_⟩
    · rw [hlater hx, List.idxOf_cons_self]
      exact Nat.succ_pos _
    · refine (ih.filter _).imp_of_mem fun hx hy hlt => ?_
      rw [hlater hx, hlater hy]
      exact Nat.succ_lt_succ hlt

/-- First occurrences in two lists side by side are those in the first one, and
behind them those in the second one that the first one lacks. -/
theorem firstOccurrences_append (a b : List α) :
    firstOccurrences (a ++ b) =
      firstOccurrences a ++ (firstOccurrences b).filter (fun x => decide (x ∉ a)) := by
  induction a with
  | nil => exact (List.filter_eq_self.2 fun x _ => by simp).symm
  | cons x a ih =>
    have hfilter : ((firstOccurrences b).filter (fun y => decide (y ∉ a))).filter (· ≠ x) =
        (firstOccurrences b).filter (fun y => decide (y ∉ x :: a)) := by
      rw [List.filter_filter]
      refine List.filter_congr fun y _ => ?_
      simp [not_or]
    simp only [List.cons_append, firstOccurrences, ih, List.filter_append, hfilter]

/-- A list without repetitions consists of first occurrences. -/
theorem firstOccurrences_of_nodup (h : a.Nodup) : firstOccurrences a = a := by
  induction a with
  | nil => rfl
  | cons x a ih =>
    obtain ⟨hx, ha⟩ := List.nodup_cons.1 h
    rw [firstOccurrences, ih ha, List.filter_eq_self.2]
    intro y hy
    simpa using fun heq : y = x => hx (heq ▸ hy)

/-- First occurrences occur first among themselves. -/
theorem firstOccurrences_idem (a : List α) :
    firstOccurrences (firstOccurrences a) = firstOccurrences a :=
  firstOccurrences_of_nodup (nodup_firstOccurrences a)

/-- First occurrences in two lists side by side depend only on the first occurrences
in each of them. -/
theorem firstOccurrences_append_congr (hab : firstOccurrences a = firstOccurrences b)
    (hcd : firstOccurrences c = firstOccurrences d) :
    firstOccurrences (a ++ c) = firstOccurrences (b ++ d) := by
  have hmem (x : α) : x ∈ a ↔ x ∈ b := by
    rw [← mem_firstOccurrences, hab, mem_firstOccurrences]
  simp only [firstOccurrences_append, hab, hcd, hmem]

/-- First occurrences in several lists side by side depend only on the first
occurrences in each of them. -/
theorem firstOccurrences_flatMap_congr {β : Type} {f g : β → List α} {l : List β}
    (h : ∀ x ∈ l, firstOccurrences (f x) = firstOccurrences (g x)) :
    firstOccurrences (l.flatMap f) = firstOccurrences (l.flatMap g) := by
  induction l with
  | nil => rfl
  | cons x l ih =>
    rw [List.flatMap_cons, List.flatMap_cons]
    exact firstOccurrences_append_congr (h x List.mem_cons_self)
      (ih fun y hy => h y (List.mem_cons_of_mem x hy))

end FirstOccurrences

/-- A type as it is written: a tag, or an alternation of written types. -/
inductive WrittenType where
  /-- A tag. -/
  | tag (t : Tag)
  /-- An alternation, in which others may be written. -/
  | alternation (parts : List WrittenType)

namespace WrittenType

/-- The tags that are written in a type, from left to right and at any depth. -/
def leaves : WrittenType → List Tag
  | tag t => [t]
  | alternation parts => parts.flatMap leaves

/-- The type that is written. -/
def type : WrittenType → TypeExpr
  | tag t => .tag t
  | alternation parts => .union (.ofTypes (parts.map type))

/-- A type stands for the tags that are written in it, each where it first
occurs. -/
theorem tags_type : ∀ w : WrittenType, w.type.tags = firstOccurrences w.leaves
  | tag t => by
    rw [type, leaves]
    rfl
  | alternation parts => by
    have hparts : ∀ w ∈ parts,
        firstOccurrences w.type.tags = firstOccurrences w.leaves := by
      intro w hw
      rw [tags_type w, firstOccurrences_idem]
    rw [type, leaves, ← firstOccurrences_flatMap_congr hparts, ← List.flatMap_map]
    rfl

end WrittenType

namespace TypeUnion

variable {u v : TypeUnion}

/-- The members of an alternation are the tags of its types, each where it first
occurs. -/
theorem members_ofTypes (xs : List TypeExpr) :
    (ofTypes xs).members = firstOccurrences (xs.flatMap TypeExpr.tags) := rfl

/-- An alternation is determined by its members. -/
theorem members_injective (h : u.members = v.members) : u = v := by
  cases u
  cases v
  cases h
  rfl

/-- The members of an alternation are the tags that are written in it, each where it
first occurs. -/
theorem members_ofTypes_written (ws : List WrittenType) :
    (ofTypes (ws.map WrittenType.type)).members =
      firstOccurrences (ws.flatMap WrittenType.leaves) := by
  rw [members_ofTypes, List.flatMap_map]
  refine firstOccurrences_flatMap_congr fun w _ => ?_
  rw [w.tags_type, firstOccurrences_idem]

/-- An alternation is that of its members. -/
theorem ofTypes_map_tag (u : TypeUnion) : ofTypes (u.members.map .tag) = u := by
  refine members_injective ?_
  have htags : (u.members.map TypeExpr.tag).flatMap TypeExpr.tags = u.members := by
    rw [List.flatMap_map]
    exact List.flatMap_singleton' u.members
  rw [members_ofTypes, htags, firstOccurrences_of_nodup u.nodup]

/-- An alternation and other types can be written side by side in place of the types
of the alternation. -/
theorem ofTypes_append_union (before xs after : List TypeExpr) :
    ofTypes (before ++ .union (ofTypes xs) :: after) = ofTypes (before ++ (xs ++ after)) := by
  refine members_injective ?_
  rw [members_ofTypes, members_ofTypes, List.flatMap_append, List.flatMap_append,
    List.flatMap_cons, List.flatMap_append]
  exact firstOccurrences_append_congr rfl
    (firstOccurrences_append_congr (firstOccurrences_idem _) rfl)

/-- The alternation of two alternations is that of all their types. -/
theorem ofTypes_union_union (xs ys : List TypeExpr) :
    ofTypes [.union (ofTypes xs), .union (ofTypes ys)] = ofTypes (xs ++ ys) := by
  have hfirst := ofTypes_append_union [] xs [.union (ofTypes ys)]
  have hsecond := ofTypes_append_union xs ys []
  rw [List.append_nil] at hsecond
  exact hfirst.trans hsecond

/-- The brackets of an alternation make no difference. -/
theorem or_assoc (x y z : TypeExpr) :
    TypeExpr.or (.union (x.or y)) z = x.or (.union (y.or z)) :=
  (ofTypes_append_union [] [x, y] [z]).trans (ofTypes_append_union [x] [y, z] []).symm

/-- An alternation with itself has no more members. -/
theorem or_self (u : TypeUnion) : TypeExpr.or (.union u) (.union u) = u := by
  refine members_injective ?_
  have htags : [TypeExpr.union u, .union u].flatMap TypeExpr.tags = u.members ++ u.members := by
    simp [TypeExpr.tags]
  unfold TypeExpr.or
  rw [members_ofTypes, htags, firstOccurrences_append, firstOccurrences_of_nodup u.nodup,
    List.filter_eq_nil_iff.2, List.append_nil]
  intro t ht
  simpa using ht

/-- The only member of the alternation of a tag with itself is the tag. -/
theorem members_or_tag (t : Tag) : (TypeExpr.or (.tag t) (.tag t)).members = [t] := by
  simp [TypeExpr.or, members_ofTypes, TypeExpr.tags, firstOccurrences]

end TypeUnion

/-- Every type can be written. -/
theorem WrittenType.exists_type_eq (x : TypeExpr) : ∃ w : WrittenType, w.type = x := by
  cases x with
  | tag t => exact ⟨tag t, by rw [type]⟩
  | union u =>
    refine ⟨alternation (u.members.map tag), ?_⟩
    have htype : (u.members.map tag).map type = u.members.map .tag := by
      rw [List.map_map]
      exact List.map_congr_left fun t _ => by rw [Function.comp, type]
    rw [type, htype, TypeUnion.ofTypes_map_tag]

/-- Tags stand for themselves. -/
theorem TypeExpr.exists_mem_map_tag {ts : List Tag} {t : Tag} :
    (∃ x ∈ ts.map tag, t ∈ x.tags) ↔ t ∈ ts := by
  constructor
  · rintro ⟨x, hx, ht⟩
    obtain ⟨u, hu, rfl⟩ := List.mem_map.1 hx
    rwa [List.mem_singleton.1 ht]
  · exact fun ht => ⟨tag t, List.mem_map_of_mem ht, List.mem_singleton_self t⟩

/-- A type as a value. -/
def TypeExpr.value : TypeExpr → Value
  | tag t => .tag t
  | union u => .union u

namespace Value

/-- The operator on two types gives their alternation. -/
theorem or_value (x y : TypeExpr) : Value.or x.value y.value = .ok (.union (x.or y)) := by
  cases x <;> cases y <;> rfl

/-- Lists have the same tags exactly if each of them has the tags of the other. -/
theorem haveSameTags_iff {ts us : List Tag} :
    haveSameTags ts us = true ↔ ∀ t, t ∈ ts ↔ t ∈ us := by
  simp only [haveSameTags, Bool.and_eq_true, List.all_eq_true, List.contains_iff_mem]
  exact ⟨fun h t => ⟨h.1 t, h.2 t⟩, fun h => ⟨fun t => (h t).1, fun t => (h t).2⟩⟩

/-- Alternations are the same exactly if they have the same members. -/
theorem equals_union {u v : TypeUnion} :
    equals (.union u) (.union v) = true ↔ ∀ t, t ∈ u.members ↔ t ∈ v.members := by
  rw [equals]
  exact haveSameTags_iff

/-- The order of two types makes no difference to their alternation, but for the order
of its members. -/
theorem equals_or_comm (x y : TypeExpr) : equals (.union (x.or y)) (.union (y.or x)) = true := by
  rw [equals_union]
  intro t
  simp [TypeExpr.or, TypeUnion.mem_members_ofTypes, or_comm]

end Value

namespace TypeSet

variable {xs ys : List TypeExpr}

/-- A set depends only on the tags of its types. -/
theorem ofTypes_congr (h : ∀ t, (∃ x ∈ xs, t ∈ x.tags) ↔ ∃ y ∈ ys, t ∈ y.tags) :
    ofTypes xs = ofTypes ys :=
  Ascending.ext_mem fun t => by rw [mem_ofTypes, mem_ofTypes, h t]

/-- The set of an alternation is the set of its types. -/
theorem ofTypes_union (xs : List TypeExpr) : ofTypes [.union (.ofTypes xs)] = ofTypes xs :=
  ofTypes_congr fun t => by simp [TypeExpr.tags, TypeUnion.mem_members_ofTypes]

/-- Adding types one by one adds their tags. -/
theorem mem_foldl_insertType {s : TypeSet} {t : Tag} :
    t ∈ xs.foldl (fun s x => insertType x s) s ↔ (∃ x ∈ xs, t ∈ x.tags) ∨ t ∈ s := by
  induction xs generalizing s with
  | nil => simp
  | cons x xs ih =>
    simp only [List.foldl_cons, ih, mem_insertType, List.mem_cons, exists_eq_or_imp]
    exact or_left_comm.trans or_assoc.symm

/-- Types that are added one by one, in any order, make up their set. -/
theorem foldl_insertType (h : ∀ t, (∃ x ∈ xs, t ∈ x.tags) ↔ ∃ y ∈ ys, t ∈ y.tags) :
    ys.foldl (fun s x => insertType x s) ∅ = ofTypes xs :=
  Ascending.ext_mem fun t => by
    rw [mem_foldl_insertType, mem_ofTypes, h t]
    simp

end TypeSet

/-- A parameter can be given as a set of types, as their alternation or as a list of
them. -/
theorem Parameter.toTypeSet_eq (xs : List TypeExpr) :
    (type (.union (.ofTypes xs))).toTypeSet = (set (.ofTypes xs)).toTypeSet ∧
      (types xs).toTypeSet = (set (.ofTypes xs)).toTypeSet :=
  ⟨TypeSet.ofTypes_union xs, rfl⟩

namespace TypeUnion

/-- The members of an alternation are the tags that are written in its types at any
depth, each once and in the order of first occurrence. So alternations can be dissolved
into their types; their operator is associative, and it is commutative, and idempotent
on alternations, up to the order of the members. A tag with itself makes an alternation
with this only member. Sets of types, of their alternation and of types that are added
one by one are the same, and so are signatures with any of these at a parameter. -/
theorem flattening_coherent (ws : List WrittenType) (xs ys : List TypeExpr) :
    (let leaves := ws.flatMap WrittenType.leaves
      let members := (ofTypes (ws.map WrittenType.type)).members
      members.Nodup ∧ (∀ t, t ∈ members ↔ t ∈ leaves) ∧
        members.Pairwise fun t u => leaves.idxOf t < leaves.idxOf u) ∧
      (∀ x : TypeExpr, ∃ w : WrittenType, w.type = x) ∧
      (ofTypes [.union (ofTypes xs), .union (ofTypes ys)]).members = (ofTypes (xs ++ ys)).members ∧
      (∀ x y : TypeExpr, Value.or x.value y.value = .ok (.union (x.or y))) ∧
      (∀ x y z : TypeExpr,
        (TypeExpr.or (.union (x.or y)) z).members = (x.or (.union (y.or z))).members) ∧
      (∀ x y : TypeExpr, Value.equals (.union (x.or y)) (.union (y.or x)) = true) ∧
      (∀ u : TypeUnion,
        Value.equals (.union (TypeExpr.or (.union u) (.union u))) (.union u) = true) ∧
      (∀ t : Tag, (TypeExpr.or (.tag t) (.tag t)).members = [t] ∧
        Value.equals (.union (TypeExpr.or (.tag t) (.tag t))) (.tag t) = false) ∧
      TypeSet.ofTypes [.union (ofTypes xs)] = TypeSet.ofTypes xs ∧
      (∀ order : List TypeExpr, order.Perm xs →
        order.foldl (fun s x => TypeSet.insertType x s) ∅ = TypeSet.ofTypes xs) ∧
      (∀ order : List Tag, order.Perm (ofTypes xs).members →
        order.foldl (fun s t => TypeSet.insertType (.tag t) s) ∅ = TypeSet.ofTypes xs) ∧
      ∀ before after : List Parameter,
        Signature.ofParameters (before ++ .type (.union (ofTypes xs)) :: after) =
            Signature.ofParameters (before ++ .set (.ofTypes xs) :: after) ∧
          Signature.ofParameters (before ++ .types xs :: after) =
            Signature.ofParameters (before ++ .set (.ofTypes xs) :: after) := by
  refine ⟨?_, WrittenType.exists_type_eq, congrArg members (ofTypes_union_union xs ys),
    Value.or_value,
    fun x y z => congrArg members (or_assoc x y z), Value.equals_or_comm, fun u => ?_,
    fun t => ⟨members_or_tag t, rfl⟩, TypeSet.ofTypes_union xs, fun order horder => ?_, fun order horder => ?_,
    fun before after => ?_⟩
  · rw [members_ofTypes_written]
    exact ⟨nodup_firstOccurrences _, fun t => mem_firstOccurrences, pairwise_firstOccurrences _⟩
  · rw [or_self]
    exact Value.equals_union.2 fun t => Iff.rfl
  · exact TypeSet.foldl_insertType fun t =>
      exists_congr fun x => and_congr_left fun _ => horder.symm.mem_iff
  · have htags : (order.map TypeExpr.tag).foldl (fun s x => TypeSet.insertType x s) ∅ =
        TypeSet.ofTypes xs := by
      refine TypeSet.foldl_insertType fun t => ?_
      rw [← mem_members_ofTypes, ← horder.mem_iff, TypeExpr.exists_mem_map_tag]
    rwa [List.foldl_map] at htags
  · obtain ⟨hunion, hlist⟩ := Parameter.toTypeSet_eq xs
    simp only [Signature.ofParameters, List.map_append, List.map_cons, hunion, hlist, and_self]

/-- Two tags that are added in the other order make up the same set. -/
theorem flattening_coherent_two :
    TypeSet.insertType (.tag (.atom ⟨"A", by decide⟩))
        (TypeSet.insertType (.tag (.atom ⟨"B", by decide⟩)) ∅) =
      TypeSet.ofTypes [.tag (.atom ⟨"A", by decide⟩), .tag (.atom ⟨"B", by decide⟩)] := by
  obtain ⟨-, -, -, -, -, -, -, -, -, hinsert, -⟩ := flattening_coherent []
    [.tag (.atom ⟨"A", by decide⟩), .tag (.atom ⟨"B", by decide⟩)] []
  exact hinsert [_, _] (.swap _ _ _)

/-- The alternation of a tag with itself is not the tag. -/
theorem or_tag_not_idempotent :
    (Value.or (.tag (.atom ⟨"A", by decide⟩)) (.tag (.atom ⟨"A", by decide⟩))).map
      (fun v => v.equals (.tag (.atom ⟨"A", by decide⟩))) = .ok false :=
  rfl

end TypeUnion

end DispatchCoverage

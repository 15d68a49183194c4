import DispatchCoverage.Proofs.Flattening
import DispatchCoverage.Proofs.Results
import DispatchCoverage.Value.Call

/-!
# Operators between a set and listed types

A set can be combined by operators with a list of types, on either side. Union,
difference and symmetric difference take the list for the set of all tags that its
types stand for. Intersection and the test for disjointness look up the types as they
stand, so they take it for the set of the tags that are types of the list themselves.
The two readings of the list differ in the tags that only alternations bring in; a set
listed as its members has one reading, and there the operators are the named operations
on sets.
-/

namespace DispatchCoverage

/-- The tag that a type is, as it stands. -/
def TypeExpr.tag? : TypeExpr → Option Tag
  | tag t => some t
  | union _ => none

namespace TypeSet

variable {s t : TypeSet} {a : Tag} {xs : List TypeExpr}

/-- The tags that are types of a list themselves. -/
def ofDirect (xs : List TypeExpr) : TypeSet := .ofList (xs.filterMap TypeExpr.tag?)

/-- A tag is directly in a list if it is one of the types. -/
theorem mem_ofDirect : a ∈ ofDirect xs ↔ .tag a ∈ xs := by
  have htag (x : TypeExpr) : x.tag? = some a ↔ x = .tag a := by
    cases x <;> simp [TypeExpr.tag?]
  simp only [ofDirect, Ascending.mem_ofList, List.mem_filterMap, htag, exists_eq_right]

/-- A list stands for the tags that are directly in it and those of its
alternations. -/
theorem mem_ofTypes_iff : a ∈ ofTypes xs ↔
    .tag a ∈ xs ∨ ∃ u, .union u ∈ xs ∧ a ∈ u.members := by
  rw [mem_ofTypes]
  constructor
  · rintro ⟨x | u, hx, ha⟩
    · exact .inl (List.mem_singleton.1 ha ▸ hx)
    · exact .inr ⟨u, hx, ha⟩
  · rintro (ha | ⟨u, hu, ha⟩)
    · exact ⟨_, ha, List.mem_singleton_self a⟩
    · exact ⟨_, hu, ha⟩

/-- A set listed as its members stands for itself. -/
theorem ofTypes_types (s : TypeSet) : ofTypes s.types = s :=
  Ascending.ext_mem fun a => by
    rw [mem_ofTypes, types, TypeExpr.exists_mem_map_tag, Ascending.mem_def]

/-- The members of a set are directly in its list. -/
theorem ofDirect_types (s : TypeSet) : ofDirect s.types = s :=
  Ascending.ext_mem fun a => by
    rw [mem_ofDirect]
    simp only [types, List.mem_map, TypeExpr.tag.injEq, exists_eq_right, Ascending.mem_def]

/-- A set holds a type as it stands if the type is a tag of the set. -/
theorem holds_iff {x : TypeExpr} : s.holds x = true ↔ ∃ a ∈ s, x = .tag a := by
  cases x <;> simp [holds]

/-- The union with a list is that with all its tags. -/
theorem orTypes_eq (s : TypeSet) (xs : List TypeExpr) : s.orTypes xs = s.union (ofTypes xs) := by
  refine Ascending.ext_mem fun a => ?_
  have hs : (∃ x ∈ s.types, a ∈ x.tags) ↔ a ∈ s := by
    rw [← mem_ofTypes, ofTypes_types]
  simp only [orTypes, mem_ofTypes, List.mem_append, or_and_right, exists_or, hs,
    Ascending.mem_union]

/-- The intersection with a list is that with the tags directly in it. -/
theorem andTypes_eq (s : TypeSet) (xs : List TypeExpr) : s.andTypes xs = s.inter (ofDirect xs) := by
  refine Ascending.ext_mem fun a => ?_
  rw [andTypes, mem_ofTypes_iff, Ascending.mem_inter, mem_ofDirect]
  simp [List.mem_filter, holds_iff, and_comm]

/-- What is in one of a set and a list but not in both. -/
theorem xorTypes_eq (s : TypeSet) (xs : List TypeExpr) :
    s.xorTypes xs = (s.union (ofTypes xs)).diff (s.inter (ofTypes xs)) := by
  have hsub (u v : TypeSet) : u.subTypes v.types = u.diff v := by
    show u.diff (ofTypes v.types) = _
    rw [ofTypes_types]
  refine Ascending.ext_mem fun a => ?_
  simp only [xorTypes, hsub, orTypes_eq, ofTypes_types, Ascending.mem_union, Ascending.mem_diff,
    Ascending.mem_inter]
  by_cases hs : a ∈ s <;> simp [hs]

/-- A set holds a type of a list as it stands if it meets the tags directly in it. -/
theorem any_holds (s : TypeSet) (xs : List TypeExpr) : xs.any s.holds = s.meets (ofDirect xs) := by
  rw [Bool.eq_iff_iff, List.any_eq_true, Ascending.meets_iff]
  simp only [holds_iff, mem_ofDirect]
  constructor
  · rintro ⟨_, hx, a, ha, rfl⟩
    exact ⟨a, ha, hx⟩
  · rintro ⟨a, ha, hx⟩
    exact ⟨_, hx, a, ha, rfl⟩

/-- The two readings of a list have the same tags in common with a set exactly if every
tag of the set that occurs in an alternation of the list is directly in it as well. -/
theorem inter_ofDirect_eq_iff : s.inter (ofDirect xs) = s.inter (ofTypes xs) ↔
    ∀ a ∈ s, (∃ u, .union u ∈ xs ∧ a ∈ u.members) → .tag a ∈ xs := by
  constructor
  · intro h a ha hu
    have hmem : a ∈ s.inter (ofTypes xs) := Ascending.mem_inter.2 ⟨ha, mem_ofTypes_iff.2 (.inr hu)⟩
    rw [← h] at hmem
    exact mem_ofDirect.1 (Ascending.mem_inter.1 hmem).2
  · intro h
    refine Ascending.ext_mem fun a => ?_
    simp only [Ascending.mem_inter, mem_ofDirect, mem_ofTypes_iff]
    exact and_congr_right fun ha => ⟨.inl, Or.rec id (h a ha)⟩

end TypeSet

namespace Value

variable {s t : TypeSet} {v : Value} {xs : List TypeExpr}

/-- The types of a list can be looked up. -/
theorem canBeSought_value (x : TypeExpr) : x.value.canBeSought = true := by
  cases x <;> rfl

/-- A type is the type that it is as a value. -/
theorem asType?_value (x : TypeExpr) : x.value.asType? = some x := by
  cases x <;> rfl

/-- A value lists some types. -/
def ListsTypes (v : Value) (xs : List TypeExpr) : Prop := v.items = .ok (xs.map TypeExpr.value)

/-- A list of types lists them. -/
theorem listsTypes_list (xs : List TypeExpr) : (list (xs.map TypeExpr.value)).ListsTypes xs := rfl

/-- A set lists its members. -/
theorem listsTypes_set (t : TypeSet) : (set t).ListsTypes t.types := by
  show Except.ok (t.toList.map tag) = .ok ((t.toList.map TypeExpr.tag).map TypeExpr.value)
  rw [List.map_map]
  rfl

namespace ListsTypes

variable (h : v.ListsTypes xs)
include h

/-- The types of a value that lists some. -/
theorem toTypes : v.toTypes = .ok xs := by
  have hvalues : TypeExpr.ofValues (xs.map TypeExpr.value) = .ok xs :=
    mapM_eq_ok_iff.2 (List.forall₂_map_left_iff.2 (List.forall₂_same.2 fun x _ => by
      cases x <;> rfl))
  rw [Value.toTypes, show v.items = _ from h]
  exact hvalues

/-- The listed types that a set holds as they stand. -/
theorem select (s : TypeSet) : Value.select s v = .ok (set (s.andTypes xs)) := by
  have hsought : (xs.map TypeExpr.value).all canBeSought = true := by
    simp [canBeSought_value]
  have htypes : (xs.map TypeExpr.value).filterMap asType? = xs := by
    simp [List.filterMap_map, asType?_value]
  rw [Value.select, show v.items = _ from h]
  show (if (xs.map TypeExpr.value).all canBeSought = true then _ else _) = _
  rw [if_pos hsought, htypes]
  rfl

/-- Whether a set holds none of the listed types as they stand. -/
theorem isDisjoint (s : TypeSet) : Value.isDisjoint s v = .ok (!xs.any s.holds) := by
  rw [Value.isDisjoint, show v.items = _ from h]
  show disjointFrom s (xs.map TypeExpr.value) = _
  clear h
  induction xs with
  | nil => rfl
  | cons x xs ih =>
    rw [List.map_cons, disjointFrom, if_pos (canBeSought_value x), asType?_value, List.any_cons]
    cases hx : s.holds x with
    | true => simp [hx]
    | false => simpa [hx] using ih

end ListsTypes

end Value

open Value

namespace TypeSet

/-- The operators between a set and a value, on either side, take the value for one set
where they dissolve alternations, and for another where they look types up. -/
structure Combines (s : TypeSet) (v : Value) (whole direct : TypeSet) : Prop where
  /-- The union on the right of the set. -/
  or : call "or" [.set s, v] = .ok (.set (s.union whole))
  /-- The union on its left. -/
  or_left : call "or" [v, .set s] = .ok (.set (s.union whole))
  /-- The difference of the set. -/
  sub : call "sub" [.set s, v] = .ok (.set (s.diff whole))
  /-- The difference of the value. -/
  sub_left : call "sub" [v, .set s] = .ok (.set (whole.diff s))
  /-- The symmetric difference on the right of the set. -/
  xor : call "xor" [.set s, v] = .ok (.set ((s.union whole).diff (s.inter whole)))
  /-- The symmetric difference on its left. -/
  xor_left : call "xor" [v, .set s] = .ok (.set ((s.union whole).diff (s.inter whole)))
  /-- The intersection on the right of the set. -/
  and : call "and" [.set s, v] = .ok (.set (s.inter direct))
  /-- The intersection on its left. -/
  and_left : call "and" [v, .set s] = .ok (.set (s.inter direct))
  /-- The test for disjointness. -/
  isDisjoint : call "isdisjoint" [.set s, v] = .ok (.bool (!s.meets direct))

/-- The operators between a set and a list of types. -/
theorem combines_list (s : TypeSet) (xs : List TypeExpr) :
    Combines s (.list (xs.map TypeExpr.value)) (ofTypes xs) (ofDirect xs) := by
  have hlist := listsTypes_list xs
  have hmap (f : List TypeExpr → Value) :
      (Value.list (xs.map TypeExpr.value)).toTypes.map f = .ok (f xs) := by
    rw [hlist.toTypes]
    rfl
  have hor := (hmap fun xs => .set (s.orTypes xs)).trans (by rw [orTypes_eq])
  have hxor := (hmap fun xs => .set (s.xorTypes xs)).trans (by rw [xorTypes_eq])
  have hand := (hlist.select s).trans (by rw [andTypes_eq])
  have hdisjoint : call "isdisjoint" [.set s, .list (xs.map TypeExpr.value)] =
      .ok (.bool (!s.meets (ofDirect xs))) := by
    show (Value.isDisjoint s _).bind _ = _
    rw [hlist.isDisjoint, any_holds]
    rfl
  exact ⟨hor, hor, hmap fun xs => .set (s.subTypes xs), hmap fun xs => .set (typesSub xs s),
    hxor, hxor, hand, hand, hdisjoint⟩

/-- A union is the same on either side. -/
theorem union_comm (s t : TypeSet) : s.union t = t.union s :=
  Ascending.ext_mem fun a => by rw [Ascending.mem_union, Ascending.mem_union, or_comm]

/-- An intersection is the same on either side. -/
theorem inter_comm (s t : TypeSet) : s.inter t = t.inter s :=
  Ascending.ext_mem fun a => by rw [Ascending.mem_inter, Ascending.mem_inter, and_comm]

/-- The operators between two sets, where both readings of the second are itself. -/
theorem combines_set (s t : TypeSet) : Combines s (.set t) t t := by
  have hxor (u v : TypeSet) :
      call "xor" [.set u, .set v] = .ok (.set ((u.union v).diff (u.inter v))) := by
    show (Value.toTypes _).map _ = _
    rw [(listsTypes_set v).toTypes]
    show Except.ok (Value.set (u.xorTypes v.types)) = _
    rw [xorTypes_eq, ofTypes_types]
  have hand (u v : TypeSet) : call "and" [.set u, .set v] = .ok (.set (u.inter v)) := by
    show Value.select u _ = _
    rw [(listsTypes_set v).select, andTypes_eq, ofDirect_types]
  have hdisjoint : call "isdisjoint" [.set s, .set t] = .ok (.bool (!s.meets t)) := by
    show (Value.isDisjoint s _).bind _ = _
    rw [(listsTypes_set t).isDisjoint, any_holds, ofDirect_types]
    rfl
  have hor : call "or" [.set t, .set s] = .ok (.set (s.union t)) := by
    rw [union_comm]
    rfl
  exact ⟨rfl, hor, rfl, rfl, hxor s t, by rw [hxor t s, union_comm, inter_comm], hand s t,
    by rw [hand t s, inter_comm], hdisjoint⟩

/-- The named operations on two sets. -/
structure Named (s t : TypeSet) : Prop where
  /-- The union. -/
  union : call "union" [.set s, .set t] = .ok (.set (s.union t))
  /-- The difference. -/
  difference : call "difference" [.set s, .set t] = .ok (.set (s.diff t))
  /-- The intersection. -/
  intersection : call "intersection" [.set s, .set t] = .ok (.set (s.inter t))
  /-- The test for a common tag. -/
  intersects : call "intersects" [.set s, .set t] = .ok (.bool (s.meets t))

/-- Named operations are there for any two sets. -/
theorem named (s t : TypeSet) : Named s t := ⟨rfl, rfl, rfl, rfl⟩

/-- The order of two sets is inclusion. -/
theorem call_le (s t : TypeSet) : call "le" [.set s, .set t] = .ok (.bool (s.subset t)) := by
  show (Value.precedes false (.set s) (.set t)).map Value.bool = _
  rw [precedes, Bool.not_false, Bool.true_or, Bool.and_true]
  rfl

/-- Operators between a set and a list of types, on either side, give what the named
operations give for the set and one of two readings of the list. Union, difference and
symmetric difference dissolve its alternations; intersection and the test for
disjointness take only the tags that are types of the list themselves. So intersection
is that with the dissolved list exactly if every tag of the set that occurs in an
alternation of the list is a type of the list as well. Between two sets the operators
are the named operations, and the order relation is inclusion. -/
theorem operators_read_lists (s : TypeSet) (xs : List TypeExpr) :
    Combines s (.list (xs.map TypeExpr.value)) (ofTypes xs) (ofDirect xs) ∧
      (∀ a, a ∈ ofDirect xs ↔ .tag a ∈ xs) ∧
      (call "and" [.set s, .list (xs.map TypeExpr.value)] =
          call "intersection" [.set s, .set (ofTypes xs)] ↔
        ∀ a ∈ s, (∃ u, .union u ∈ xs ∧ a ∈ u.members) → .tag a ∈ xs) ∧
      (∀ t : TypeSet, Combines s (.set t) t t) ∧
      (∀ t u : TypeSet, Named t u) ∧
      ∀ t : TypeSet, ∃ included, call "le" [.set s, .set t] = .ok (.bool included) ∧
        (included = true ↔ ∀ a, a ∈ s → a ∈ t) := by
  have hlist := combines_list s xs
  have hnamed := named s (ofTypes xs)
  refine ⟨hlist, fun a => mem_ofDirect, ?_, combines_set s, named, fun t =>
    ⟨s.subset t, call_le s t, Ascending.subset_iff⟩⟩
  rw [hlist.and, hnamed.intersection, Except.ok.injEq, Value.set.injEq, inter_ofDirect_eq_iff]

/-- A tag that is in the set, and in the list only within an alternation, is lost in the
intersection, though the union has the other tag of the alternation. -/
theorem operators_read_lists_alternation :
    let a : Tag := .atom ⟨"A", by decide⟩
    let b : Tag := .atom ⟨"B", by decide⟩
    let c : Tag := .atom ⟨"C", by decide⟩
    let s : TypeSet := .ofList [a, b]
    let xs : List TypeExpr := [.union (.ofTypes [.tag a, .tag c]), .tag b]
    let given := Value.list (xs.map TypeExpr.value)
    call "and" [given, .set s] = .ok (.set (.ofList [b])) ∧
      call "and" [.set s, given] ≠ call "intersection" [.set s, .set (ofTypes xs)] ∧
      call "or" [given, .set s] = .ok (.set (.ofList [a, b, c])) ∧
      call "sub" [given, .set s] = .ok (.set (.ofList [c])) ∧
      call "isdisjoint" [.set (.ofList [a]), given] = .ok (.bool true) := by
  intro a b c s xs given
  obtain ⟨hlist, -, hand, -⟩ := operators_read_lists s xs
  obtain ⟨hsingle, -⟩ := operators_read_lists (.ofList [a]) xs
  have hinter : s.inter (ofDirect xs) = .ofList [b] := by decide +kernel
  have hunion : s.union (ofTypes xs) = .ofList [a, b, c] := by decide +kernel
  have hdiff : (ofTypes xs).diff s = .ofList [c] := by decide +kernel
  have hmeets : (Ascending.ofList [a]).meets (ofDirect xs) = false := by decide +kernel
  refine ⟨hinter ▸ hlist.and_left, fun heq => ?_, hunion ▸ hlist.or_left, hdiff ▸ hlist.sub_left, ?_⟩
  · have hmem : TypeExpr.tag a ∈ xs :=
      hand.1 heq a (by decide +kernel) ⟨_, List.mem_cons_self, by decide +kernel⟩
    rw [← mem_ofDirect] at hmem
    exact absurd hmem (by decide +kernel)
  · rw [hsingle.isDisjoint, hmeets]
    rfl

end TypeSet

end DispatchCoverage

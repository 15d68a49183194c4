import Mathlib.Data.List.Nodup
import Mathlib.Data.List.TakeWhile
import DispatchCoverage.Graph.Reading
import DispatchCoverage.Proofs.Results

/-!
# What the nodes of a graph describe

A node describes a list, a tag, a type set or a signature when the triples about
it, and about the nodes that it refers to, say so without contradiction. What a
node describes is read back from it. The triples in question are about nodes of
a given kind, so that triples about other nodes can be added without an effect
on the description.
-/

namespace DispatchCoverage

namespace Tag

/-- An argument is nested less deeply than the tag. -/
theorem nesting_lt_of_mem {n : Name} {t : Tag} {ts : List Tag} (h : t ∈ ts) :
    t.nesting < (mk n ts).nesting := by
  rw [nesting]
  induction ts with
  | nil => exact absurd h List.not_mem_nil
  | cons u us ih =>
    rw [nestingAll]
    rcases List.mem_cons.1 h with rfl | h
    · omega
    · have := ih h
      omega

/-- A tag that is nested has an argument that is nested one level less. -/
theorem exists_nesting {n : Name} {ts : List Tag} {k : Nat} (h : (mk n ts).nesting = k + 1) :
    ∃ t ∈ ts, t.nesting = k := by
  rw [nesting] at h
  induction ts with
  | nil => exact absurd h (by simp [nestingAll])
  | cons u us ih =>
    rw [nestingAll] at h
    by_cases hu : u.nesting = k
    · exact ⟨u, List.mem_cons_self, hu⟩
    · obtain ⟨t, ht, hk⟩ := ih (by omega)
      exact ⟨t, List.mem_cons_of_mem u ht, hk⟩

end Tag

namespace Graph

variable {g g' : Graph} {P P' : Node → Prop}

/-- A property of a node has one value and no other. -/
def HasOnly (g : Graph) (s p o : Node) : Prop := ∀ o', Triple.mk s p o' ∈ g ↔ o' = o

/-- A property of a node has no value. -/
def HasNone (g : Graph) (s p : Node) : Prop := ∀ o, Triple.mk s p o ∉ g

/-- A property of a node has no value or some. -/
theorem hasNone_or_exists (g : Graph) (s p : Node) :
    g.HasNone s p ∨ ∃ o, Triple.mk s p o ∈ g :=
  (Classical.em (∃ o, Triple.mk s p o ∈ g)).symm.imp_left not_exists.1

/-- The values of a property of a node are listed once each. -/
theorem nodup_objects (g : Graph) (s p : Node) : (g.objects (some s) (some p)).Nodup := by
  refine (g.nodup.filter _).map_on fun t ht u hu htu => ?_
  simp only [List.mem_filter, Triple.fits, Option.all_some, Option.all_none, Bool.and_true,
    Bool.and_eq_true, beq_iff_eq] at ht hu
  cases t
  cases u
  simp_all

/-- The resources with a value of a property are those that the graph states. -/
theorem mem_subjects {s p o : Node} : s ∈ g.subjects (some p) (some o) ↔ Triple.mk s p o ∈ g := by
  show s ∈ (g.triples.filter _).map _ ↔ Triple.mk s p o ∈ g.triples
  simp only [List.mem_map, List.mem_filter, Triple.fits, Option.all_some, Option.all_none,
    Bool.true_and, Bool.and_eq_true, beq_iff_eq]
  constructor
  · rintro ⟨t, ⟨ht, rfl, rfl⟩, rfl⟩
    exact ht
  · exact fun h => ⟨_, ⟨h, rfl, rfl⟩, rfl⟩

/-- The resources with a value of a property are listed once each. -/
theorem nodup_subjects (g : Graph) (p o : Node) : (g.subjects (some p) (some o)).Nodup := by
  refine (g.nodup.filter _).map_on fun t ht u hu htu => ?_
  simp only [List.mem_filter, Triple.fits, Option.all_some, Option.all_none, Bool.true_and,
    Bool.and_eq_true, beq_iff_eq] at ht hu
  cases t
  cases u
  simp_all

/-- The only value of a property is read as its value. -/
theorem value?_of_hasOnly {s p o : Node} (h : g.HasOnly s p o) :
    g.value? (some s) p = .ok (some o) := by
  have hperm : (g.objects (some s) (some p)).Perm [o] :=
    (List.perm_ext_iff_of_nodup (g.nodup_objects s p) (List.nodup_singleton o)).2 fun o' => by
      rw [mem_objects, h o', List.mem_singleton]
  simp only [value?, List.perm_singleton.1 hperm]

/-- A property without a value is read as having none. -/
theorem value?_of_hasNone {s p : Node} (h : g.HasNone s p) : g.value? (some s) p = .ok none := by
  have hnil : g.objects (some s) (some p) = [] :=
    List.eq_nil_iff_forall_not_mem.2 fun o ho => h o (mem_objects.1 ho)
  simp only [value?, hnil]

/-! ## Descriptions -/

/-- A node begins a list of some items: a chain of nodes, each with one first
item and one rest, up to the empty list. -/
inductive IsList (g : Graph) (P : Node → Prop) : Node → List Node → Prop
  /-- The empty list has no first item. -/
  | nil (known : P .nil) (first : g.HasNone .nil .first) : IsList g P .nil []
  /-- A list with a first item and a list behind it. -/
  | cons {node item rest : Node} {items : List Node} (known : P node)
    (first : g.HasOnly node .first item) (next : g.HasOnly node .rest rest)
    (tail : IsList g P rest items) : IsList g P node (item :: items)

/-- The arguments of a node are some items: a list of them is stated unless
there are none. -/
def HasArguments (g : Graph) (P : Node → Prop) (node : Node) : List Node → Prop
  | [] => g.HasNone node .arguments
  | item :: items => ∃ list, g.HasOnly node .arguments list ∧ g.IsList P list (item :: items)

mutual

/-- A node describes a tag: it has the name of the tag, and arguments that
describe the arguments of the tag. -/
def IsTag (g : Graph) (P : Node → Prop) (node : Node) : Tag → Prop
  | .mk n ts => P node ∧ g.HasOnly node .name (.literal (.text n.text)) ∧
      ∃ items, g.HasArguments P node items ∧ AreTags g P items ts

/-- Several nodes describe several tags, one by one. -/
def AreTags (g : Graph) (P : Node → Prop) (items : List Node) : List Tag → Prop
  | [] => items = []
  | t :: ts => ∃ item rest, items = item :: rest ∧ IsTag g P item t ∧ AreTags g P rest ts

end

/-- Nodes describe tags one by one. -/
theorem areTags_iff {items : List Node} {ts : List Tag} :
    g.AreTags P items ts ↔ List.Forall₂ (g.IsTag P) items ts := by
  induction ts generalizing items with
  | nil => simp [AreTags]
  | cons t ts ih => grind [AreTags, List.forall₂_cons_right_iff]

/-- A node describes a type set: its members describe the tags of the set. -/
structure IsTypeSet (g : Graph) (P : Node → Prop) (node : Node) (s : TypeSet) : Prop where
  /-- The node is of the given kind. -/
  known : P node
  /-- Every member describes a tag of the set. -/
  sound : ∀ member, Triple.mk node .member member ∈ g → ∃ t ∈ s, g.IsTag P member t
  /-- Every tag of the set is described by a member. -/
  complete : ∀ t ∈ s, ∃ member, Triple.mk node .member member ∈ g ∧ g.IsTag P member t

/-- A node describes a signature: its parameters are a list of nodes that
describe the type sets of the signature. -/
def IsSignature (g : Graph) (P : Node → Prop) (node : Node) (s : Signature) : Prop :=
  ∃ list items, P node ∧ g.HasOnly node .parameters list ∧ g.IsList P list items ∧
    List.Forall₂ (g.IsTypeSet P) items s.parameters

/-- The nodes of a list are of the given kind. -/
theorem IsList.known {node : Node} {items : List Node} (h : g.IsList P node items) : P node := by
  cases h <;> assumption

/-! ## Descriptions in a larger graph -/

/-- A graph says the same as another one about all nodes of a kind. -/
def Agrees (g' g : Graph) (P : Node → Prop) : Prop :=
  ∀ s, P s → ∀ p o, Triple.mk s p o ∈ g' ↔ Triple.mk s p o ∈ g

/-- The only value of a property stays the only one. -/
theorem Agrees.hasOnly (h : g'.Agrees g P) {s p o : Node} (hs : P s) (ho : g.HasOnly s p o) :
    g'.HasOnly s p o :=
  fun o' => (h s hs p o').trans (ho o')

/-- A property without a value stays without one. -/
theorem Agrees.hasNone (h : g'.Agrees g P) {s p : Node} (hs : P s) (hn : g.HasNone s p) :
    g'.HasNone s p :=
  fun o ho => hn o ((h s hs p o).1 ho)

/-- A list stays a list of the same items as long as the same first items and rests
are stated about its nodes. -/
theorem IsList.congr (hP : ∀ s, P s → P' s)
    (hsame : ∀ s, P s → ∀ p, p = .first ∨ p = .rest → ∀ o,
      Triple.mk s p o ∈ g' ↔ Triple.mk s p o ∈ g)
    {node : Node} {items : List Node} (hl : g.IsList P node items) :
    g'.IsList P' node items := by
  induction hl with
  | nil known first =>
    exact .nil (hP _ known) fun o ho => first o ((hsame _ known .first (.inl rfl) o).1 ho)
  | cons known first next _ ih =>
    exact .cons (hP _ known) (fun o => (hsame _ known .first (.inl rfl) o).trans (first o))
      (fun o => (hsame _ known .rest (.inr rfl) o).trans (next o)) ih

/-- A list stays a list of the same items. -/
theorem Agrees.isList (h : g'.Agrees g P) (hP : ∀ s, P s → P' s) {node : Node}
    {items : List Node} (hl : g.IsList P node items) : g'.IsList P' node items :=
  hl.congr hP fun s hs p _ o => h s hs p o

/-- Arguments stay arguments as long as they are stated in the same way. -/
theorem Agrees.hasArguments (h : g'.Agrees g P) (hP : ∀ s, P s → P' s) {node : Node}
    {items : List Node}
    (hnode : ∀ o, Triple.mk node .arguments o ∈ g' ↔ Triple.mk node .arguments o ∈ g)
    (ha : g.HasArguments P node items) : g'.HasArguments P' node items := by
  cases items with
  | nil => exact fun o ho => ha o ((hnode o).1 ho)
  | cons item items =>
    obtain ⟨list, hlist, hitems⟩ := ha
    exact ⟨list, fun o => (hnode o).trans (hlist o), h.isList hP hitems⟩

mutual

/-- A node that describes a tag keeps describing it. -/
theorem Agrees.isTag (h : g'.Agrees g P) (hP : ∀ s, P s → P' s) {node : Node} :
    ∀ {t : Tag}, g.IsTag P node t → g'.IsTag P' node t
  | .mk _ _, ht => by
    simp only [IsTag] at ht ⊢
    obtain ⟨hnode, hname, items, harguments, hitems⟩ := ht
    exact ⟨hP _ hnode, h.hasOnly hnode hname, items,
      h.hasArguments hP (h node hnode .arguments) harguments, h.areTags hP hitems⟩

/-- Nodes that describe several tags keep describing them. -/
theorem Agrees.areTags (h : g'.Agrees g P) (hP : ∀ s, P s → P' s) {items : List Node} :
    ∀ {ts : List Tag}, g.AreTags P items ts → g'.AreTags P' items ts
  | [], ht => by simpa only [AreTags] using ht
  | _ :: _, ht => by
    simp only [AreTags] at ht ⊢
    obtain ⟨item, rest, hitems, hitem, hrest⟩ := ht
    exact ⟨item, rest, hitems, h.isTag hP hitem, h.areTags hP hrest⟩

end

/-- A node that describes a type set keeps describing it. -/
theorem Agrees.isTypeSet (h : g'.Agrees g P) (hP : ∀ s, P s → P' s) {node : Node}
    {s : TypeSet} (hs : g.IsTypeSet P node s) : g'.IsTypeSet P' node s where
  known := hP _ hs.known
  sound member hmember := by
    obtain ⟨t, ht, hmember⟩ := hs.sound member ((h node hs.known _ _).1 hmember)
    exact ⟨t, ht, h.isTag hP hmember⟩
  complete t ht := by
    obtain ⟨member, hmember, hdescribed⟩ := hs.complete t ht
    exact ⟨member, (h node hs.known _ _).2 hmember, h.isTag hP hdescribed⟩

/-- A node that describes a signature keeps describing it. -/
theorem Agrees.isSignature (h : g'.Agrees g P) (hP : ∀ s, P s → P' s) {node : Node}
    {s : Signature} (hs : g.IsSignature P node s) : g'.IsSignature P' node s := by
  obtain ⟨list, items, hnode, hlist, hitems, hsets⟩ := hs
  exact ⟨list, items, hP _ hnode, h.hasOnly hnode hlist, h.isList hP hitems,
    hsets.imp fun _ _ hset => h.isTypeSet hP hset⟩

/-! ## Descriptions are read back -/

/-- Where there are lists, the empty list has no first item. -/
theorem IsList.hasNone_nil {node : Node} {items : List Node} (h : g.IsList P node items) :
    g.HasNone .nil .first := by
  induction h with
  | nil _ first => exact first
  | cons _ _ _ _ ih => exact ih

/-- A list of one or more items does not begin with the empty list. -/
theorem IsList.ne_nil {node item : Node} {items : List Node}
    (h : g.IsList P node (item :: items)) : node ≠ .nil := by
  rintro rfl
  cases h with
  | cons _ first _ tail => exact tail.hasNone_nil item ((first item).2 rfl)

/-- A node begins one list at most. -/
theorem IsList.unique {node : Node} {xs ys : List Node} (hx : g.IsList P node xs)
    (hy : g.IsList P' node ys) : xs = ys := by
  induction hx generalizing ys with
  | nil _ hnone =>
    cases hy with
    | nil => rfl
    | cons _ first => exact absurd ((first _).2 rfl) (hnone _)
  | cons _ first next _ ih =>
    cases hy with
    | nil _ hnone => exact absurd ((first _).2 rfl) (hnone _)
    | cons _ first' next' tail =>
      obtain rfl := (next _).1 ((next' _).2 rfl)
      rw [(first _).1 ((first' _).2 rfl), ih tail]

/-- A list is read up to the first item that ends a list, given enough steps; where
there is such an item, the reading ends in an error. -/
theorem IsList.listWithin {node : Node} {items : List Node} (h : g.IsList P node items)
    {fuel : Nat} (hfuel : items.length < fuel) :
    g.listWithin fuel (some node) = ⟨items.takeWhile fun item => !item.isFalsy,
      if items.takeWhile (fun item => !item.isFalsy) = items then none else some .notAList⟩ := by
  obtain _ | fuel := fuel
  · exact absurd hfuel (Nat.not_lt_zero _)
  induction h generalizing fuel with
  | nil _ first =>
    rw [Graph.listWithin, value?_of_hasNone first]
    simp only [List.takeWhile_nil, if_true]
  | @cons node item rest items known first next tail ih =>
    rw [Graph.listWithin, value?_of_hasOnly first]
    cases hitem : item.isFalsy with
    | true => simp [hitem, (IsList.cons known first next tail).ne_nil]
    | false =>
      obtain _ | fuel := fuel
      · exact absurd hfuel (by simp)
      have hrest := ih fuel (Nat.lt_of_succ_lt_succ hfuel)
      rw [value?_of_hasOnly next]
      simp only [hitem, hrest, List.takeWhile_cons, Bool.not_false, Bool.false_eq_true, if_false,
        if_true, List.cons.injEq, true_and]

/-- A node whose rank goes down one by one, where no node has two ranks, has as
many different nodes of lower or equal rank as its rank says. -/
theorem exists_descent {R : Node → Nat → Prop} (unique : ∀ {s j k}, R s j → R s k → j = k)
    (descent : ∀ {s k}, R s (k + 2) → ∃ s', R s' (k + 1)) {s : Node} {k : Nat}
    (h : R s (k + 1)) :
    ∃ nodes : List Node, nodes.length = k + 1 ∧ nodes.Nodup ∧
      ∀ s' ∈ nodes, ∃ j ≤ k, R s' (j + 1) := by
  induction k generalizing s with
  | zero =>
    refine ⟨[s], rfl, List.nodup_singleton s, fun s' hs' => ⟨0, Nat.le_refl 0, ?_⟩⟩
    rwa [List.mem_singleton.1 hs']
  | succ k ih =>
    obtain ⟨below, hbelow⟩ := descent h
    obtain ⟨nodes, hlength, hnodup, hnodes⟩ := ih hbelow
    have hnew : s ∉ nodes := by
      intro hmem
      obtain ⟨j, hj, hsj⟩ := hnodes s hmem
      have := unique h hsj
      omega
    refine ⟨s :: nodes, by rw [List.length_cons, hlength], List.nodup_cons.2 ⟨hnew, hnodup⟩,
      List.forall_mem_cons.2 ⟨⟨k + 1, Nat.le_refl _, h⟩, fun s' hs' => ?_⟩⟩
    obtain ⟨j, hj, hsj⟩ := hnodes s' hs'
    exact ⟨j, Nat.le_succ_of_le hj, hsj⟩

/-- A rank that goes down one by one, through nodes that the graph is about, is at
most the number of triples. -/
theorem rank_le_size {R : Node → Nat → Prop} (unique : ∀ {s j k}, R s j → R s k → j = k)
    (subject : ∀ {s k}, R s (k + 1) → ∃ p o, Triple.mk s p o ∈ g)
    (descent : ∀ {s k}, R s (k + 2) → ∃ s', R s' (k + 1)) {s : Node} {k : Nat} (h : R s k) :
    k ≤ g.size := by
  cases k with
  | zero => exact Nat.zero_le _
  | succ k =>
    obtain ⟨nodes, hlength, hnodup, hnodes⟩ := exists_descent (R := R) unique descent h
    have hsubset : nodes ⊆ g.triples.map Triple.subject := by
      intro s' hs'
      obtain ⟨j, -, hsj⟩ := hnodes s' hs'
      obtain ⟨p, o, ho⟩ := subject hsj
      exact List.mem_map.2 ⟨_, ho, rfl⟩
    have hle := hnodup.length_le_of_subset hsubset
    rwa [hlength, List.length_map] at hle

/-- A list has no more items than the graph has triples. -/
theorem IsList.length_le_size {node : Node} {items : List Node} (h : g.IsList P node items) :
    items.length ≤ g.size := by
  refine rank_le_size (R := fun s k => ∃ items, g.IsList P s items ∧ items.length = k) ?_ ?_ ?_
    ⟨items, h, rfl⟩
  · rintro s _ _ ⟨xs, hx, rfl⟩ ⟨ys, hy, rfl⟩
    rw [hx.unique hy]
  · rintro s k ⟨_, hx, hk⟩
    cases hx with
    | nil => exact absurd hk (by simp)
    | cons _ first => exact ⟨_, _, (first _).2 rfl⟩
  · rintro s k ⟨_, hx, hk⟩
    cases hx with
    | nil => exact absurd hk (by simp)
    | cons _ _ _ tail => exact ⟨_, _, tail, Nat.succ.inj hk⟩

/-- A list is read up to the first item that ends a list; where there is such an
item, the reading ends in an error. -/
theorem IsList.list_takeWhile {node : Node} {items : List Node} (h : g.IsList P node items) :
    g.list (some node) = ⟨items.takeWhile fun item => !item.isFalsy,
      if items.takeWhile (fun item => !item.isFalsy) = items then none else some .notAList⟩ :=
  h.listWithin (by have := h.length_le_size; omega)

/-- A list is read as its items, if none of them is the end of a list. -/
theorem IsList.list {node : Node} {items : List Node} (h : g.IsList P node items)
    (hitems : ∀ item ∈ items, item.isFalsy = false) : g.list (some node) = ⟨items, none⟩ := by
  have hall : items.takeWhile (fun item => !item.isFalsy) = items :=
    List.takeWhile_eq_self_iff.2 fun item hitem => by rw [hitems item hitem, Bool.not_false]
  rw [h.list_takeWhile, if_pos hall, hall]

/-- The items of a complete list are read one by one. -/
theorem eachItem_of_forall₂ {α : Type} {f : Node → Except ReadError α} {items : List Node}
    {values : List α} (h : List.Forall₂ (fun item value => f item = .ok value) items values) :
    eachItem f ⟨items, none⟩ = .ok values := by
  rw [eachItem, mapM_eq_ok_iff.2 h]
  rfl

/-- What describes a tag is of the given kind. -/
theorem IsTag.known {node : Node} {t : Tag} (h : g.IsTag P node t) : P node := by
  cases t
  simp only [IsTag] at h
  exact h.1

section Reading

variable (hP : ∀ s, P s → s.isFalsy = false)

include hP

/-- Nodes that describe something, one by one, do not end a list. -/
theorem isFalsy_of_forall₂ {β : Type} {R : Node → β → Prop} (hR : ∀ s b, R s b → P s)
    {items : List Node} {bs : List β} (h : List.Forall₂ R items bs) :
    ∀ item ∈ items, item.isFalsy = false := by
  induction h with
  | nil => exact fun _ hitem => absurd hitem List.not_mem_nil
  | cons hitem _ ih => exact List.forall_mem_cons.2 ⟨hP _ (hR _ _ hitem), ih⟩

/-- A tag is read from a node that describes it, given enough levels. -/
theorem IsTag.tagWithin {fuel : Nat} {node : Node} {t : Tag} (h : g.IsTag P node t)
    (hfuel : t.nesting < fuel) : g.tagWithin fuel (some node) = .ok t := by
  induction fuel generalizing node t with
  | zero => exact absurd hfuel (Nat.not_lt_zero _)
  | succ fuel ih =>
    obtain ⟨n, ts⟩ := t
    simp only [IsTag] at h
    obtain ⟨-, hname, items, harguments, hitems⟩ := h
    have hitems := areTags_iff.1 hitems
    have hread : List.Forall₂ (fun item t => g.tagWithin fuel (some item) = .ok t) items ts := by
      refine List.forall₂_iff_zip.2 ⟨hitems.length_eq, fun hzip => ?_⟩
      have hnesting := Tag.nesting_lt_of_mem (n := n) (List.of_mem_zip hzip).2
      exact ih (List.forall₂_zip hitems hzip) (by omega)
    have hn : Name.ofString? (Node.literal (.text n.text)).nameText = some n :=
      Name.ofString?_eq_some_iff.2 rfl
    rw [Graph.tagWithin, value?_of_hasOnly hname]
    cases items with
    | nil =>
      obtain rfl := List.forall₂_nil_left_iff.1 hitems
      simp only [bind, Except.bind, value?_of_hasNone harguments, hn]
    | cons item items =>
      obtain ⟨list, hlist, hcells⟩ := harguments
      simp only [bind, Except.bind, value?_of_hasOnly hlist, hP _ hcells.known,
        hcells.list (isFalsy_of_forall₂ hP (fun _ _ => IsTag.known) hitems),
        eachItem_of_forall₂ hread, hn, Bool.false_eq_true, if_false]

/-- A tag is nested no deeper than the graph has triples. -/
theorem IsTag.nesting_lt_size {node : Node} {t : Tag} (h : g.IsTag P node t) :
    t.nesting < g.size := by
  refine rank_le_size (R := fun s k => ∃ t, g.IsTag P s t ∧ t.nesting + 1 = k) ?_ ?_ ?_
    ⟨t, h, rfl⟩
  · rintro s _ _ ⟨t, ht, rfl⟩ ⟨u, hu, rfl⟩
    -- Reading gives one answer, so a node describes one tag.
    have ht := ht.tagWithin hP (Nat.lt_succ_of_le (Nat.le_max_left t.nesting u.nesting))
    have hu := hu.tagWithin hP (Nat.lt_succ_of_le (Nat.le_max_right t.nesting u.nesting))
    rw [Except.ok.inj (ht.symm.trans hu)]
  · rintro s k ⟨⟨n, ts⟩, ht, -⟩
    simp only [IsTag] at ht
    exact ⟨_, _, (ht.2.1 _).2 rfl⟩
  · rintro s k ⟨⟨n, ts⟩, ht, hk⟩
    simp only [IsTag] at ht
    obtain ⟨-, -, items, -, hitems⟩ := ht
    obtain ⟨u, hu, hnesting⟩ := Tag.exists_nesting (Nat.succ.inj hk)
    obtain ⟨item, -, hitem⟩ := exists_mem_of_forall₂ (areTags_iff.1 hitems) hu
    exact ⟨item, u, hitem, by rw [hnesting]⟩

/-- A tag is read from a node that describes it. -/
theorem IsTag.tag {node : Node} {t : Tag} (h : g.IsTag P node t) : g.tag (some node) = .ok t :=
  h.tagWithin hP (by have := h.nesting_lt_size hP; omega)

/-- A type set is read from a node that describes it. -/
theorem IsTypeSet.typeSet {node : Node} {s : TypeSet} (h : g.IsTypeSet P node s) :
    g.typeSet (some node) = .ok s := by
  have hread : ∀ member ∈ g.objects (some node) (some .member),
      ∃ t ∈ s, g.tag (some member) = .ok t := by
    intro member hmember
    obtain ⟨t, ht, hdescribed⟩ := h.sound member (mem_objects.1 hmember)
    exact ⟨t, ht, hdescribed.tag hP⟩
  obtain ⟨tags, htags, hmem⟩ := exists_mapM fun member hmember =>
    (hread member hmember).imp fun _ ht => ht.2
  have hs : Ascending.ofList tags = s := Ascending.ext_mem fun t => by
    rw [Ascending.mem_ofList, hmem]
    constructor
    · rintro ⟨member, hmember, ht⟩
      obtain ⟨u, hu, hread⟩ := hread member hmember
      exact Except.ok.inj (hread.symm.trans ht) ▸ hu
    · intro ht
      obtain ⟨member, hmember, hdescribed⟩ := h.complete t ht
      exact ⟨member, mem_objects.2 hmember, hdescribed.tag hP⟩
  rw [Graph.typeSet, htags, ← hs]
  rfl

/-- A signature is read from a node that describes it. -/
theorem IsSignature.signature {node : Node} {s : Signature} (h : g.IsSignature P node s) :
    g.signature (some node) = .ok s := by
  obtain ⟨list, items, -, hlist, hcells, hsets⟩ := h
  have htruthy := isFalsy_of_forall₂ hP (fun _ _ => IsTypeSet.known) hsets
  have heach := eachItem_of_forall₂ (hsets.imp fun _ _ hset => hset.typeSet hP)
  simp only [Graph.signature, bind, Except.bind, value?_of_hasOnly hlist, hcells.list htruthy,
    heach]
  rfl

end Reading

end Graph

end DispatchCoverage

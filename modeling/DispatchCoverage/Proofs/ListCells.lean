import Mathlib.Logic.Relation
import DispatchCoverage.Proofs.ReadBack

/-!
# Cells of lists

A list is a chain of cells, one for each item, up to the empty list. Writing a list
makes new cells only, so no list that was there before is touched, and two lists
that are written share nothing but the empty list. What is read back from a list is
not always what was written: an item that is an empty, false or zero literal looks
like the end of the list, and since it does not stand at the empty list, the reading
fails there.
-/

namespace DispatchCoverage

namespace Graph

variable {g g' : Graph} {P : Node → Prop} {node : Option Node} {fuel fuel' : Nat}

/-! ## Steps of reading -/

/-- What is stated about a property decides what is read as its value. -/
theorem value?_congr {p : Node}
    (h : ∀ s ∈ node, ∀ o, Triple.mk s p o ∈ g' ↔ Triple.mk s p o ∈ g) :
    g'.value? node p = g.value? node p := by
  cases node with
  | none => rfl
  | some s =>
    have hperm : (g'.objects (some s) (some p)).Perm (g.objects (some s) (some p)) :=
      (List.perm_ext_iff_of_nodup (g'.nodup_objects s p) (g.nodup_objects s p)).2 fun o => by
        rw [mem_objects, mem_objects, h s rfl]
    simp only [value?]
    generalize g'.objects (some s) (some p) = values' at hperm ⊢
    generalize g.objects (some s) (some p) = values at hperm ⊢
    -- Two values are an error, whichever comes first.
    rcases values with _ | ⟨o, _ | ⟨o', later⟩⟩
    · rw [List.perm_nil.1 hperm]
    · rw [List.perm_singleton.1 hperm]
    · rcases values' with _ | ⟨p, _ | ⟨p', later'⟩⟩
      · exact absurd hperm.length_eq (by simp)
      · exact absurd hperm.length_eq (by simp)
      · rfl

/-- What is read as the value of a property is stated. -/
theorem exists_mem_of_value? {p o : Node} (h : g.value? node p = .ok (some o)) :
    ∃ s ∈ node, Triple.mk s p o ∈ g := by
  cases node with
  | none => cases h
  | some s =>
    simp only [value?] at h
    split at h
    · cases h
    · rename_i o' ho
      cases h
      exact ⟨s, rfl, mem_objects.1 (ho ▸ List.mem_singleton_self o)⟩
    · cases h

/-- A property is not read where it has two values. -/
theorem eq_notUnique_of_value? {p : Node} {e : ReadError} (h : g.value? node p = .error e) :
    e = .notUnique := by
  cases node with
  | none => cases h
  | some s =>
    simp only [value?] at h
    split at h
    · cases h
    · cases h
    · exact (Except.error.inj h).symm

/-- A step of reading either ends it, whatever number of steps is left, or goes on
behind a cell. -/
theorem listWithin_cases (g : Graph) (node : Option Node) :
    (∃ reading : ListReading, reading.error ≠ some .circular ∧
      ∀ fuel, g.listWithin (fuel + 1) node = reading) ∨
    ∃ item rest, g.value? node .first = .ok (some item) ∧ g.value? node .rest = .ok rest ∧
      ∀ fuel, g.listWithin (fuel + 1) node =
        ⟨item :: (g.listWithin fuel rest).items, (g.listWithin fuel rest).error⟩ := by
  have hfinish : (if node = some .nil then none else some ReadError.notAList) ≠ some .circular := by
    split <;> simp
  cases hfirst : g.value? node .first with
  | error e =>
    obtain rfl := eq_notUnique_of_value? hfirst
    exact .inl ⟨⟨[], some .notUnique⟩, by simp, fun fuel => by rw [listWithin, hfirst]⟩
  | ok first =>
    cases first with
    | none => exact .inl ⟨_, hfinish, fun fuel => by rw [listWithin, hfirst]⟩
    | some item =>
      cases hitem : item.isFalsy with
      | true =>
        exact .inl ⟨_, hfinish, fun fuel => by rw [listWithin, hfirst]; exact if_pos hitem⟩
      | false =>
        cases hrest : g.value? node .rest with
        | error e =>
          obtain rfl := eq_notUnique_of_value? hrest
          refine .inl ⟨⟨[item], some .notUnique⟩, by simp, fun fuel => ?_⟩
          rw [listWithin, hfirst, hrest]
          simp only [hitem, Bool.false_eq_true, if_false]
        | ok rest =>
          refine .inr ⟨item, rest, rfl, rfl, fun fuel => ?_⟩
          rw [listWithin, hfirst, hrest]
          simp only [hitem, Bool.false_eq_true, if_false]

/-- More steps do not change a reading that has come to its end. -/
theorem listWithin_of_le (h : (g.listWithin fuel node).error ≠ some .circular)
    (hle : fuel ≤ fuel') : g.listWithin fuel' node = g.listWithin fuel node := by
  induction fuel generalizing node fuel' with
  | zero => exact absurd rfl h
  | succ fuel ih =>
    obtain ⟨fuel', rfl⟩ := Nat.exists_eq_add_of_lt hle
    rcases g.listWithin_cases node with ⟨reading, -, hreading⟩ | ⟨item, rest, -, -, hreading⟩
    · rw [hreading, hreading]
    · rw [hreading] at h ⊢
      rw [hreading, ih h (by omega)]

/-- The number of cells that a reading which comes to its end passes before. -/
def EndsBehind (g : Graph) (node : Option Node) (k : Nat) : Prop :=
  ∀ fuel, (g.listWithin fuel node).error ≠ some .circular ↔ k < fuel

namespace EndsBehind

/-- A reading that comes to its end passes some number of cells. -/
theorem exists_of_listWithin (h : (g.listWithin fuel node).error ≠ some .circular) :
    ∃ k, g.EndsBehind node k := by
  induction fuel generalizing node with
  | zero => exact absurd rfl h
  | succ fuel ih =>
    rcases g.listWithin_cases node with ⟨reading, hends, hreading⟩ | ⟨item, rest, -, -, hlater⟩
    · refine ⟨0, fun fuel => ?_⟩
      cases fuel with
      | zero => exact iff_of_false (fun hne => hne rfl) (Nat.lt_irrefl 0)
      | succ fuel => exact iff_of_true (by rwa [hreading]) (Nat.succ_pos fuel)
    · rw [hlater] at h
      obtain ⟨k, hk⟩ := ih h
      refine ⟨k + 1, fun fuel => ?_⟩
      cases fuel with
      | zero => exact iff_of_false (fun hne => hne rfl) (Nat.not_lt_zero _)
      | succ fuel =>
        rw [hlater, Nat.add_lt_add_iff_right]
        exact hk fuel

/-- Where reading passes a cell, it goes on behind this cell. -/
theorem cell {k : Nat} (h : g.EndsBehind node (k + 1)) :
    ∃ item rest, g.value? node .first = .ok (some item) ∧ g.value? node .rest = .ok rest ∧
      g.EndsBehind rest k := by
  rcases g.listWithin_cases node with ⟨reading, hends, hreading⟩ | ⟨item, rest, hitem, hrest, hlater⟩
  · have hone := (h 1).1 (by rwa [hreading])
    omega
  · refine ⟨item, rest, hitem, hrest, fun fuel => ?_⟩
    have hstep := h (fuel + 1)
    rwa [hlater, Nat.add_lt_add_iff_right] at hstep

/-- Reading passes no cell where there is no node. -/
theorem eq_zero {k : Nat} (h : g.EndsBehind none k) : k = 0 :=
  Nat.lt_one_iff.1 ((h 1).1 (by simp [Graph.listWithin, value?]))

/-- Reading passes no more cells than the graph has triples. -/
theorem le_size {k : Nat} (h : g.EndsBehind node k) : k ≤ g.size := by
  cases node with
  | none => exact h.eq_zero ▸ Nat.zero_le _
  | some s =>
    refine rank_le_size (R := fun s => g.EndsBehind (some s)) ?_ ?_ ?_ h
    · intro s j k hj hk
      have hjk := (hj (j + 1)).symm.trans (hk (j + 1))
      have hkj := (hj (k + 1)).symm.trans (hk (k + 1))
      omega
    · intro s k hs
      obtain ⟨item, -, hitem, -, -⟩ := hs.cell
      obtain ⟨_, hs', hmem⟩ := exists_mem_of_value? hitem
      exact ⟨_, _, Option.mem_some_iff.1 hs' ▸ hmem⟩
    · intro s k hs
      obtain ⟨-, rest, -, -, hrest⟩ := hs.cell
      cases rest with
      | none => exact absurd hrest.eq_zero (Nat.succ_ne_zero k)
      | some next => exact ⟨next, hrest⟩

end EndsBehind

/-- A reading that comes to its end at all does so within the number of steps that
lists are read with. -/
theorem list_of_listWithin (h : (g.listWithin fuel node).error ≠ some .circular) :
    g.list node = g.listWithin fuel node := by
  obtain ⟨k, hk⟩ := EndsBehind.exists_of_listWithin h
  have hlist : (g.list node).error ≠ some .circular :=
    (hk _).2 (Nat.lt_succ_of_le (Nat.le_succ_of_le hk.le_size))
  rcases Nat.le_total fuel (g.size + 2) with hle | hle
  · exact listWithin_of_le h hle
  · exact (listWithin_of_le hlist hle).symm

/-! ## Reading in a larger graph -/

section Agrees

variable (h : g'.Agrees g P) (hclosed : ∀ s o, P s → Triple.mk s .rest o ∈ g → P o)

include h hclosed

/-- Lists of nodes that the graphs agree about are read in the same way. -/
theorem Agrees.listWithin (hnode : ∀ s ∈ node, P s) :
    g'.listWithin fuel node = g.listWithin fuel node := by
  induction fuel generalizing node with
  | zero => rfl
  | succ fuel ih =>
    have hsame : ∀ p, g'.value? node p = g.value? node p := fun p =>
      value?_congr fun s hs => h s (hnode s hs) p
    rw [Graph.listWithin, Graph.listWithin, hsame, hsame]
    cases hrest : g.value? node .rest with
    | error e => rfl
    | ok rest =>
      have hlater : g'.listWithin fuel rest = g.listWithin fuel rest := ih fun o ho => by
        obtain ⟨s, hs, hso⟩ := exists_mem_of_value? (ho ▸ hrest)
        exact hclosed s o (hnode s hs) hso
      simp only [hlater]

/-- A list that is read to its end is read in the same way in a larger graph. -/
theorem Agrees.list (hsize : g.size ≤ g'.size) (hnode : ∀ s ∈ node, P s)
    (hends : (g.list node).error ≠ some .circular) : g'.list node = g.list node := by
  have hsame : g'.listWithin (g.size + 2) node = g.list node := h.listWithin hclosed hnode
  have hmore : g'.list node = g'.listWithin (g.size + 2) node :=
    listWithin_of_le (by rwa [hsame]) (Nat.add_le_add_right hsize 2)
  rw [hmore, hsame]

end Agrees

/-! ## Cells -/

/-- A cell is followed by its rest. Nothing follows the empty list. -/
def Follows (g : Graph) (cell next : Node) : Prop := cell ≠ .nil ∧ Triple.mk cell .rest next ∈ g

/-- A node is a cell of the list that begins with another one: it is reached from
there over rests, before or at the empty list. -/
abbrev IsCell (g : Graph) : Node → Node → Prop := Relation.ReflTransGen g.Follows

/-- A list has the same cells, and maybe more, in a larger graph. -/
theorem isCell_mono (h : ∀ t ∈ g, t ∈ g') {head cell : Node} (hc : g.IsCell head cell) :
    g'.IsCell head cell :=
  Relation.ReflTransGen.mono (fun _ _ hf => ⟨hf.1, h _ hf.2⟩) _ _ hc

namespace IsList

variable {head cell : Node} {items : List Node} (h : g.IsList P head items)

include h

/-- Every cell begins a list of the last items. -/
theorem exists_suffix (hc : g.IsCell head cell) : ∃ later, later <:+ items ∧ g.IsList P cell later := by
  induction hc with
  | refl => exact ⟨items, List.suffix_refl items, h⟩
  | tail _ hfollows ih =>
    obtain ⟨later, hsuffix, hlater⟩ := ih
    cases hlater with
    | nil => exact absurd rfl hfollows.1
    | cons _ _ next tail =>
      obtain rfl := (next _).1 hfollows.2
      exact ⟨_, (List.suffix_cons _ _).trans hsuffix, tail⟩

/-- The last cell is the empty list. -/
theorem isCell_nil : g.IsCell head .nil := by
  induction h with
  | nil => exact .refl
  | cons known first next tail ih =>
    exact .head ⟨(IsList.cons known first next tail).ne_nil, (next _).2 rfl⟩ ih

/-- A cell further on begins a list of fewer items. -/
theorem exists_length_lt (hc : Relation.TransGen g.Follows head cell) :
    ∃ later, later.length < items.length ∧ g.IsList P cell later := by
  obtain ⟨next, hfollows, hcell⟩ := Relation.TransGen.head'_iff.1 hc
  cases h with
  | nil => exact absurd rfl hfollows.1
  | cons _ _ hnext tail =>
    obtain rfl := (hnext next).1 hfollows.2
    obtain ⟨later, hsuffix, hlater⟩ := tail.exists_suffix hcell
    exact ⟨later, Nat.lt_succ_of_le hsuffix.length_le, hlater⟩

end IsList

/-- A graph that has the triples of another one has at least as many. -/
theorem size_le_of_forall_mem (h : ∀ t ∈ g, t ∈ g') : g.size ≤ g'.size :=
  g.nodup.length_le_of_subset h

end Graph

namespace CoverageGraph

variable {g g' : CoverageGraph} {node : Node}

/-- The nodes that are still to be made occur nowhere. -/
def FreshUnused (g : CoverageGraph) : Prop :=
  ∀ k, g.next ≤ k → ∀ t ∈ g.graph,
    t.subject ≠ .blank (.fresh k) ∧ t.object ≠ .blank (.fresh k)

/-- All that writing a list states are the first items and the rests of its cells,
which are made on the way. -/
theorem addList_new (g : CoverageGraph) (items : List Node) :
    ∀ t ∈ (g.addList items).2.graph, t ∈ g.graph ∨
      (t.predicate = .first ∨ t.predicate = .rest) ∧ g.Made (g.addList items).2 t.subject ∧
        (g.addList items).2.graph.IsCell (g.addList items).1 t.subject := by
  induction items generalizing g with
  | nil => exact fun t => .inl
  | cons item items ih =>
    set first := g.fresh.2.state g.fresh.1 .first item
    have hkeeps : Keeps (fun _ => True) first (first.addList items).2 := addList_keeps first items
    have hmade : g.Made (first.addList items).2 g.fresh.1 :=
      ⟨g.next, Nat.le_refl _, hkeeps.next_le, rfl⟩
    intro t ht
    rcases Graph.mem_insert.1 ht with rfl | ht
    · exact .inr ⟨.inr rfl, hmade, .refl⟩
    rcases ih first t ht with ht | ⟨hp, ⟨k, hle, hlt, heq⟩, hcell⟩
    · rcases Graph.mem_insert.1 ht with rfl | ht
      · exact .inr ⟨.inl rfl, hmade, .refl⟩
      · exact .inl ht
    · -- The cell is reached behind the new one, over the triples stated so far.
      refine .inr ⟨hp, ⟨k, Nat.le_of_succ_le hle, hlt, heq⟩, ?_⟩
      have hfollows : (g.addList (item :: items)).2.graph.Follows g.fresh.1
          (first.addList items).1 := ⟨Node.noConfusion, Graph.mem_insert.2 (.inl rfl)⟩
      exact .head hfollows
        (Graph.isCell_mono (fun _ hu => Graph.mem_insert.2 (.inr hu)) hcell)

/-- A graph where the nodes that are still to be made occur nowhere takes lists if the
empty list has no first item. -/
theorem FreshUnused.takesLists (h : g.FreshUnused) (hnil : g.graph.HasNone .nil .first) :
    g.TakesLists where
  nil_first := hnil
  ahead k hk _ _ _ ho := (h k hk _ ho).1 rfl

/-- Writing a list keeps all that is said about nodes other than those still to be
made. -/
theorem addList_agrees (g : CoverageGraph) (items : List Node) :
    (g.addList items).2.graph.Agrees g.graph fun s => ∀ k, g.next ≤ k → s ≠ .blank (.fresh k) := by
  intro s hs p o
  have hkeeps : Keeps (fun _ => True) g (g.addList items).2 := addList_keeps g items
  refine ⟨fun ho => (addList_new g items _ ho).elim id fun hnew => ?_, hkeeps.stated _⟩
  obtain ⟨-, ⟨k, hk, -, heq⟩, -⟩ := hnew
  exact absurd heq (hs k hk)

/-- A node whose list is read without an error is none that is still to be made. -/
theorem FreshUnused.ne_fresh_of_list (h : g.FreshUnused)
    (hread : (g.graph.list (some node)).error = none) :
    ∀ k, g.next ≤ k → node ≠ .blank (.fresh k) := by
  rintro k hk rfl
  have hnone : g.graph.HasNone (.blank (.fresh k)) .first := fun _ ho => (h k hk _ ho).1 rfl
  rw [Graph.list, Graph.listWithin, Graph.value?_of_hasNone hnone] at hread
  cases hread

/-- A list is read in the same way when another one was written, provided that its
node is made already and that reading it comes to its end. -/
theorem FreshUnused.list_addList (h : g.FreshUnused) (items : List Node)
    (hnode : ∀ k, g.next ≤ k → node ≠ .blank (.fresh k)) {fuel : Nat}
    (hends : (g.graph.listWithin fuel (some node)).error ≠ some .circular) :
    (g.addList items).2.graph.list (some node) = g.graph.listWithin fuel (some node) := by
  have hkeeps : Keeps (fun _ => True) g (g.addList items).2 := addList_keeps g items
  have hread := Graph.list_of_listWithin hends
  rw [← hread] at hends ⊢
  exact (addList_agrees g items).list (fun s o _ ho k hk => (h k hk _ ho).2)
    (Graph.size_le_of_forall_mem hkeeps.stated)
    (fun s hs => Option.mem_some_iff.1 hs ▸ hnode) hends

/-- Two lists that are written, with any calls between them, share no cell but the
empty list. -/
theorem TakesLists.eq_nil_of_isCell (h : g.TakesLists) (xs ys : List Node) (between : List Call)
    {cell : Node}
    (hx : (((g.addList xs).2.runAll between).addList ys).2.graph.IsCell (g.addList xs).1 cell)
    (hy : (((g.addList xs).2.runAll between).addList ys).2.graph.IsCell
      (((g.addList xs).2.runAll between).addList ys).1 cell) : cell = .nil := by
  set written := (g.addList xs).2
  set later := written.runAll between
  have hwritten : Keeps (fun _ => True) g written := addList_keeps g xs
  have hlater : Keeps (fun _ => True) written later := (runAll_advances written between).keeps
  have hagain : Keeps (fun _ => True) later (later.addList ys).2 := addList_keeps later ys
  have hfirst := (addList_isList g xs h).congr (fun _ hs => hs) fun s hs p _ o =>
    (hlater.trans hagain).agrees s ⟨trivial, hs.elim .inl Made.known⟩ p o
  have hsecond := addList_isList later ys ((h.keeps hwritten trivial).keeps hlater trivial)
  obtain ⟨_, -, hcell⟩ := hfirst.exists_suffix hx
  obtain ⟨_, -, hcell'⟩ := hsecond.exists_suffix hy
  rcases hcell.known with hnil | ⟨k, -, hlt, rfl⟩
  · exact hnil
  rcases hcell'.known with hnil | ⟨k', hle, -, heq⟩
  · exact hnil
  -- A node made for the first list is older than all that are made for the second one.
  have hk : k = k' := BlankNode.fresh.inj (Node.blank.inj heq)
  have hnext : (g.addList xs).2.next ≤ later.next := hlater.next_le
  omega

/-- A list is read back up to its first falsy item: a literal that is empty, false or
zero, or a resource with an empty address. Then the reading ends normally if that was
all, and fails otherwise. Writing the list keeps all triples, and the lists that can be
read from nodes are read in the same way afterwards: those that are read without an
error, and those that end in an error, too, as long as their nodes are made already.
Lists that are written separately share no cell but the empty list. All this holds for
every graph, however it came about, in which the empty list has no first item and the
blank nodes still to be made occur nowhere. -/
theorem list_round_trip (g : CoverageGraph) (xs : List Node)
    (hnil : g.graph.HasNone .nil .first) (hfresh : g.FreshUnused) :
    let written := g.addList xs
    let readable := xs.takeWhile fun x => !x.isFalsy
    written.2.graph.list (some written.1) =
      ⟨readable, if readable = xs then none else some .notAList⟩ ∧
    (∀ t ∈ g.graph, t ∈ written.2.graph) ∧
    (∀ node, (g.graph.list (some node)).error = none →
      written.2.graph.list (some node) = g.graph.list (some node)) ∧
    (∀ node fuel, (∀ k, g.next ≤ k → node ≠ .blank (.fresh k)) →
      (g.graph.listWithin fuel (some node)).error ≠ some .circular →
        written.2.graph.list (some node) = g.graph.listWithin fuel (some node)) ∧
    ∀ between ys cell,
      let again := (written.2.runAll between).addList ys
      again.2.graph.IsCell written.1 cell → again.2.graph.IsCell again.1 cell → cell = .nil := by
  intro written readable
  have htakes : g.TakesLists := hfresh.takesLists hnil
  have hkeeps : Keeps (fun _ => True) g written.2 := addList_keeps g xs
  refine ⟨(addList_isList g xs htakes).list_takeWhile, hkeeps.stated, fun node hread => ?_,
    fun node fuel hnode hends => hfresh.list_addList xs hnode hends,
    fun between ys cell => htakes.eq_nil_of_isCell xs ys between⟩
  exact hfresh.list_addList xs (hfresh.ne_fresh_of_list hread) (by rw [← Graph.list, hread]; simp)

/-- A graph that was not written by the library alone: it has a list of one number at
a labelled node, and says something about the empty list. -/
def numberList : CoverageGraph :=
  let g : CoverageGraph := { next := 3 }
  let g := g.state (.blank (.labelled "numbers")) .first (.literal (.integer 7))
  let g := g.state (.blank (.labelled "numbers")) .rest .nil
  g.state .nil .type .listClass

/-- Items with a zero among them. -/
def zeroItems : List Node :=
  [.literal (.text "a"), .literal (.integer 0), .literal (.text "b")]

/-- Behind the zero nothing is read of a list that was written, and the reading fails;
the list that was there before is read in full, before and after. -/
theorem list_round_trip_zero :
    numberList.graph.HasNone .nil .first ∧ numberList.FreshUnused ∧
      (numberList.addList zeroItems).2.graph.list (some (numberList.addList zeroItems).1) =
        ⟨[.literal (.text "a")], some .notAList⟩ ∧
      (numberList.graph.list (some (.blank (.labelled "numbers")))).error = none ∧
      (numberList.addList zeroItems).2.graph.list (some (.blank (.labelled "numbers"))) =
        numberList.graph.list (some (.blank (.labelled "numbers"))) := by
  have hstated : ∀ t ∈ numberList.graph, ∀ node ∈ [t.subject, t.object],
      node ∈ [.blank (.labelled "numbers"), .literal (.integer 7), .nil, .listClass] := by decide
  have hother : ∀ node ∈ [.blank (.labelled "numbers"), .literal (.integer 7), .nil, .listClass],
      ∀ k, node ≠ Node.blank (.fresh k) := by simp [Node.nil, Node.listClass]
  have hfresh : numberList.FreshUnused := fun k _ t ht =>
    ⟨hother _ (hstated t ht _ (by simp)) k, hother _ (hstated t ht _ (by simp)) k⟩
  have hempty : numberList.graph.objects (some .nil) (some .first) = [] := by decide
  have hnil : numberList.graph.HasNone .nil .first := fun _ ho =>
    absurd (Graph.mem_objects.2 ho) (hempty ▸ List.not_mem_nil)
  have hread : (numberList.graph.list (some (.blank (.labelled "numbers")))).error = none := by
    decide
  have hreadable : (zeroItems.takeWhile fun x => !x.isFalsy) = [.literal (.text "a")] := by decide
  obtain ⟨hlist, -, hkept, -⟩ := list_round_trip numberList zeroItems hnil hfresh
  rw [hreadable, if_neg (by decide)] at hlist
  exact ⟨hnil, hfresh, hlist, hread, hkept _ hread⟩

end CoverageGraph

end DispatchCoverage

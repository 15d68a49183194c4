import DispatchCoverage.Proofs.ListCells
import DispatchCoverage.Proofs.NodeSharing

/-!
# Well-formed graphs

Reading follows the statements of a graph from node to node and would not end on a
list or a tag that contains itself. No such list or tag is ever written. Every piece
of writing keeps the cells of all lists in chains that end in the empty list, and
gives parameters to signatures only. Together with the register of tags and
signatures this makes a graph well formed after any calls, and on a well-formed graph
reading ends: with a value, or because a node is not what it is read as.
-/

namespace DispatchCoverage

namespace Graph

variable {g : Graph}

/-- A property of a node has one value at most. -/
def HasAtMostOne (g : Graph) (s p : Node) : Prop :=
  ∀ o o', Triple.mk s p o ∈ g → Triple.mk s p o' ∈ g → o = o'

/-- The only value of a property is the only one stated. -/
theorem HasOnly.hasAtMostOne {s p o : Node} (h : g.HasOnly s p o) : g.HasAtMostOne s p :=
  fun _ _ ho ho' => ((h _).1 ho).trans ((h _).1 ho').symm

/-- The node of a tag is an item of the list that is stated as the arguments of
another tag. -/
def IsArgument (g : Graph) (argument node : Node) : Prop :=
  Triple.mk argument .type .tagClass ∈ g ∧ Triple.mk node .type .tagClass ∈ g ∧
    ∃ list cell, Triple.mk node .arguments list ∈ g ∧ g.IsCell list cell ∧
      Triple.mk cell .first argument ∈ g

/-- A graph in which lists end and tags do not contain themselves. -/
structure WellFormed (g : Graph) : Prop where
  /-- No node has two first items. -/
  first : ∀ s, g.HasAtMostOne s .first
  /-- No node has two rests. -/
  rest : ∀ s, g.HasAtMostOne s .rest
  /-- Along rests no node is reached again. -/
  acyclic : ∀ s, ¬Relation.TransGen (fun cell next => Triple.mk cell .rest next ∈ g) s s
  /-- Nothing follows the empty list. -/
  nil_rest : g.HasNone .nil .rest
  /-- From every node with a first item or a rest, rests lead to the empty list. -/
  ends : ∀ s p o, p = .first ∨ p = .rest → Triple.mk s p o ∈ g → g.IsCell s .nil
  /-- A tag has one name. -/
  named : ∀ s, Triple.mk s .type .tagClass ∈ g → ∃ name, g.HasOnly s .name name
  /-- A tag has one list of arguments at most. -/
  arguments : ∀ s, Triple.mk s .type .tagClass ∈ g → g.HasAtMostOne s .arguments
  /-- A signature has one list of parameters. -/
  parameters : ∀ s, Triple.mk s .type .signatureClass ∈ g → ∃ list, g.HasOnly s .parameters list
  /-- Tags contain each other to a limited depth. -/
  nested : WellFounded g.IsArgument

/-- Reading a node ends, with a value or because the node, or one that it refers to,
is not what it is read as. -/
structure ReadsToEnd (g : Graph) (node : Node) : Prop where
  /-- A list is read, maybe up to a node that is no list. -/
  list : (g.list (some node)).error = none ∨ (g.list (some node)).error = some .notAList
  /-- A tag is read, or the node has no name. -/
  tag : (∃ t, g.tag (some node) = .ok t) ∨ g.tag (some node) = .error (.notATag (some node))
  /-- A type set is read, or a member has no name. -/
  typeSet : (∃ s, g.typeSet (some node) = .ok s) ∨
    ∃ member, g.typeSet (some node) = .error (.notATag (some member))
  /-- A signature is read, or the node has no parameters. -/
  signature : (∃ s, g.signature (some node) = .ok s) ∨
    g.signature (some node) = .error (.notASignature (some node))

/-- How deep the tag is nested that a node describes. -/
def nestingAt (g : Graph) (node : Node) : Nat :=
  match g.tag (some node) with
  | .ok t => t.nesting
  | .error _ => 0

/-- A node without a first item is read as an empty list or as no list. -/
theorem list_of_hasNone {node : Node} (h : g.HasNone node .first) :
    g.list (some node) = ⟨[], if some node = some .nil then none else some .notAList⟩ := by
  rw [list, listWithin, value?_of_hasNone h]

/-- A node without a name is no tag. -/
theorem tag_of_hasNone {node : Node} (h : g.HasNone node .name) :
    g.tag (some node) = .error (.notATag (some node)) := by
  rw [tag, tagWithin, value?_of_hasNone h]
  rfl

/-- A node without parameters is no signature. -/
theorem signature_of_hasNone {node : Node} (h : g.HasNone node .parameters) :
    g.signature (some node) = .error (.notASignature (some node)) := by
  rw [signature, value?_of_hasNone h]
  rfl

/-- A type set is read if all its members are, and not if one of them is no tag. -/
theorem typeSet_of_forall {node : Node}
    (h : ∀ member, (∃ t, g.tag (some member) = .ok t) ∨
      g.tag (some member) = .error (.notATag (some member))) :
    (∃ s, g.typeSet (some node) = .ok s) ∨
      ∃ member, g.typeSet (some node) = .error (.notATag (some member)) := by
  cases htags : (g.objects (some node) (some .member)).mapM fun member => g.tag (some member) with
  | ok tags => exact .inl ⟨Ascending.ofList tags, by rw [typeSet, htags]; rfl⟩
  | error e =>
    obtain ⟨-, member, -, -, -, -, hmember⟩ := mapM_eq_error_iff.1 htags
    rcases h member with ⟨t, ht⟩ | hnone
    · exact absurd (ht.symm.trans hmember) (by simp)
    · obtain rfl := Except.error.inj (hmember.symm.trans hnone)
      exact .inr ⟨member, by rw [typeSet, htags]; rfl⟩

end Graph

namespace CoverageGraph

variable {T : Tag → Prop} {S : Signature → Prop} {g g' : CoverageGraph} {node : Node}

/-! ## Chains of cells -/

/-- No list is half written: every node with a first item or a rest begins a list of
nodes made so far. And parameters are stated for signatures only. -/
structure Chained (g : CoverageGraph) : Prop where
  /-- Cells belong to lists. -/
  cells : ∀ s p o, p = .first ∨ p = .rest → Triple.mk s p o ∈ g.graph →
    ∃ item items, g.graph.IsList g.Known s (item :: items)
  /-- What has parameters is a signature. -/
  parameters : ∀ s o, Triple.mk s .parameters o ∈ g.graph → s ∈ g.signatureNodes.map Prod.snd

namespace Chained

/-- Before the first call there are no cells. -/
theorem start (labels : Bool) : Chained { withLabels := labels } where
  cells _ _ _ _ h := absurd h List.not_mem_nil
  parameters _ _ h := absurd h List.not_mem_nil

/-- Whatever states no first items and no rests leaves the lists as they are. -/
theorem of_same (h : g.Chained) (hnext : g.next ≤ g'.next)
    (hsame : ∀ s p o, p = .first ∨ p = .rest →
      (Triple.mk s p o ∈ g'.graph ↔ Triple.mk s p o ∈ g.graph))
    (hparameters : ∀ s o, Triple.mk s .parameters o ∈ g'.graph →
      s ∈ g'.signatureNodes.map Prod.snd) : g'.Chained where
  cells s p o hp ho := by
    obtain ⟨item, items, hlist⟩ := h.cells s p o hp ((hsame s p o hp).1 ho)
    exact ⟨item, items, hlist.congr (fun _ hs => hs.of_le hnext) fun s _ p hp o => hsame s p o hp⟩
  parameters := hparameters

variable (h : g.Chained)
include h

/-- The empty list has no rest and no first item. -/
theorem hasNone_nil {p : Node} (hp : p = .first ∨ p = .rest) : g.graph.HasNone .nil p := by
  intro o ho
  obtain ⟨item, items, hlist⟩ := h.cells .nil p o hp ho
  exact hlist.ne_nil rfl

/-- Lists can be written. -/
theorem takesLists : g.TakesLists where
  nil_first := h.hasNone_nil (.inl rfl)
  ahead k hk p hp o ho := by
    obtain ⟨item, items, hlist⟩ := h.cells _ p o hp ho
    exact hlist.known.ne_fresh k hk rfl

/-- Writing a list leaves no list half written. -/
theorem addList (items : List Node) : (g.addList items).2.Chained := by
  have hkeeps : Keeps (fun _ => True) g (g.addList items).2 := addList_keeps g items
  have hwritten := addList_isList g items h.takesLists
  refine ⟨fun s p o hp ho => ?_, fun s o ho => ?_⟩
  · rcases addList_new g items _ ho with hold | ⟨-, ⟨k, -, -, rfl⟩, hcell⟩
    · obtain ⟨item, later, hlist⟩ := h.cells s p o hp hold
      exact ⟨item, later, hlist.congr (fun _ => hkeeps.known) fun s hs p _ o =>
        hkeeps.agrees s ⟨trivial, hs⟩ p o⟩
    · obtain ⟨later, -, hlist⟩ := hwritten.exists_suffix hcell
      cases hlist with
      | @cons _ item _ later known first next tail =>
        exact ⟨item, later, (Graph.IsList.cons known first next tail).congr
          (fun _ hs => hs.elim .inl Made.known) fun _ _ _ _ _ => Iff.rfl⟩
  · rw [(noted_addList g items).2]
    have hother : ¬(Node.parameters = .first ∨ Node.parameters = .rest) := by decide
    exact h.parameters s o ((addList_new g items _ ho).resolve_right fun hnew => hother hnew.1)

end Chained

/-- Every piece of writing keeps lists whole. -/
theorem Piece.chained (h : Piece T S g g') (hg : g.Chained) : g'.Chained := by
  cases h with
  | make => exact hg.of_same (Nat.le_succ _) (fun _ _ _ _ => Iff.rfl) hg.parameters
  | @state p o node haside =>
    refine hg.of_same (Nat.le_refl _) (fun s q o hq => Graph.mem_insert_ne ?_) fun s o ho => ?_
    · rcases hq with rfl | rfl
      · exact haside.notFirst.symm
      · exact haside.notRest.symm
    · rcases Graph.mem_insert.1 ho with heq | ho
      · obtain ⟨rfl, hp, -⟩ := Triple.mk.inj heq
        exact haside.parameters hp.symm
      · exact hg.parameters s o ho
  | list items => exact hg.addList items
  | tag hnone ht =>
    refine hg.of_same (Nat.le_succ _) (fun s p o hp => ?_) fun s o ho => ?_
    · have hname : p ≠ .name := by rcases hp with rfl | rfl <;> decide
      have htype : p ≠ .type := by rcases hp with rfl | rfl <;> decide
      exact (Graph.mem_insert_ne hname).trans (Graph.mem_insert_ne htype)
    · exact hg.parameters s o ((Graph.mem_insert_ne (by decide)).1
        ((Graph.mem_insert_ne (by decide)).1 ho))
  | signature hnone hs =>
    refine hg.of_same (Nat.le_succ _) (fun s p o hp => ?_) fun s o ho => ?_
    · exact Graph.mem_insert_ne (by rcases hp with rfl | rfl <;> decide)
    · exact List.mem_cons_of_mem _ (hg.parameters s o ((Graph.mem_insert_ne (by decide)).1 ho))

/-- So do several pieces. -/
theorem Pieces.chained (h : Pieces T S g g') (hg : g.Chained) : g'.Chained := by
  induction h with
  | refl => exact hg
  | tail _ hpiece ih => exact hpiece.chained ih

/-- And so do several calls. -/
theorem Chained.runAll (h : g.Chained) (calls : List Call) : (g.runAll calls).Chained := by
  induction calls generalizing g with
  | nil => exact h
  | cons call calls ih => exact ih ((run_pieces g call).chained h)

/-! ## Well-formedness -/

namespace Shared

variable (h : g.Shared)
include h

/-- A node of the class of tags describes a tag. -/
theorem exists_hasTag (hnode : Triple.mk node .type .tagClass ∈ g.graph) :
    ∃ t, g.HasTag (fun _ => True) node t := by
  obtain ⟨⟨t, _⟩, hentry, rfl⟩ := List.mem_map.1 ((h.tags.nodes node).1 hnode)
  exact ⟨t, h.complete.tags _ hentry trivial⟩

/-- A node that is noted for a signature describes it. -/
theorem exists_hasSignature (hnode : node ∈ g.signatureNodes.map Prod.snd) :
    ∃ s, g.HasSignature (fun _ => True) node s := by
  obtain ⟨⟨s, _⟩, hentry, rfl⟩ := List.mem_map.1 hnode
  exact ⟨s, h.complete.signatures _ hentry⟩

end Shared

/-- What a tag has as its argument describes an argument of the tag. -/
theorem HasTag.exists_argument {n : Name} {ts : List Tag} {argument list cell : Node}
    (h : g.HasTag (fun _ => True) node (.mk n ts))
    (hlist : Triple.mk node .arguments list ∈ g.graph) (hcell : g.graph.IsCell list cell)
    (hargument : Triple.mk cell .first argument ∈ g.graph) :
    ∃ t ∈ ts, g.HasTag (fun _ => True) argument t := by
  simp only [HasTag, Graph.IsTag] at h
  obtain ⟨-, -, items, harguments, hitems⟩ := h
  cases items with
  | nil => exact absurd hlist (harguments list)
  | cons item items =>
    obtain ⟨list', honly, hlist'⟩ := harguments
    obtain rfl := (honly list).1 hlist
    obtain ⟨later, hsuffix, hlater⟩ := hlist'.exists_suffix hcell
    have hmem : argument ∈ later := by
      cases hlater with
      | nil _ hnone => exact absurd hargument (hnone argument)
      | cons _ first => exact List.mem_cons.2 (.inl ((first argument).1 hargument))
    exact exists_mem_of_forall₂ (Graph.areTags_iff.1 hitems).flip (hsuffix.mem hmem)

/-- An argument of a tag is nested less deeply. -/
theorem Shared.nestingAt_lt (h : g.Shared) {argument : Node}
    (hargument : g.graph.IsArgument argument node) :
    g.graph.nestingAt argument < g.graph.nestingAt node := by
  obtain ⟨-, hnode, list, cell, hlist, hcell, hfirst⟩ := hargument
  obtain ⟨⟨n, ts⟩, htag⟩ := h.exists_hasTag hnode
  obtain ⟨t, ht, hdescribed⟩ := HasTag.exists_argument htag hlist hcell hfirst
  have hread : g.graph.tag (some node) = .ok (.mk n ts) := HasTag.read htag []
  have hread' : g.graph.tag (some argument) = .ok t := HasTag.read hdescribed []
  simp only [Graph.nestingAt, hread, hread']
  exact Tag.nesting_lt_of_mem ht

/-- A graph whose register is in accord with it and whose lists are whole is well
formed. -/
theorem Shared.wellFormed (h : g.Shared) (hc : g.Chained) : g.graph.WellFormed where
  first s o o' ho := by
    obtain ⟨item, items, hlist⟩ := hc.cells s .first o (.inl rfl) ho
    cases hlist with
    | cons _ first => exact first.hasAtMostOne o o' ho
  rest s o o' ho := by
    obtain ⟨item, items, hlist⟩ := hc.cells s .rest o (.inr rfl) ho
    cases hlist with
    | cons _ _ next => exact next.hasAtMostOne o o' ho
  acyclic s hcycle := by
    have hstep : ∀ cell next, Triple.mk cell .rest next ∈ g.graph → g.graph.Follows cell next := by
      refine fun cell next hnext => ⟨?_, hnext⟩
      rintro rfl
      exact hc.hasNone_nil (.inr rfl) next hnext
    have hfollows : Relation.TransGen g.graph.Follows s s :=
      Relation.TransGen.mono hstep s s hcycle
    obtain ⟨next, hnext, -⟩ := Relation.TransGen.head'_iff.1 hfollows
    obtain ⟨item, items, hlist⟩ := hc.cells s .rest next (.inr rfl) hnext.2
    obtain ⟨later, hlt, hlater⟩ := hlist.exists_length_lt hfollows
    exact Nat.lt_irrefl _ (hlist.unique hlater ▸ hlt)
  nil_rest := hc.hasNone_nil (.inr rfl)
  ends s p o hp ho := by
    obtain ⟨item, items, hlist⟩ := hc.cells s p o hp ho
    exact hlist.isCell_nil
  named s hs := by
    obtain ⟨⟨n, ts⟩, ht⟩ := h.exists_hasTag hs
    simp only [HasTag, Graph.IsTag] at ht
    exact ⟨_, ht.2.1⟩
  arguments s hs o o' ho := by
    obtain ⟨⟨n, ts⟩, ht⟩ := h.exists_hasTag hs
    simp only [HasTag, Graph.IsTag] at ht
    obtain ⟨-, -, items, harguments, -⟩ := ht
    cases items with
    | nil => exact absurd ho (harguments o)
    | cons item items =>
      obtain ⟨list, honly, -⟩ := harguments
      exact honly.hasAtMostOne o o' ho
  parameters s hs := by
    obtain ⟨u, list, -, -, hlist, -⟩ := h.exists_hasSignature ((h.signatures.nodes s).1 hs)
    exact ⟨list, hlist⟩
  nested := Subrelation.wf (fun hargument => h.nestingAt_lt hargument)
    (measure g.graph.nestingAt).wf

/-- Reading ends on every node of such a graph. -/
theorem Shared.readsToEnd (h : g.Shared) (hc : g.Chained) (node : Node) :
    g.graph.ReadsToEnd node := by
  have htag : ∀ node, (∃ t, g.graph.tag (some node) = .ok t) ∨
      g.graph.tag (some node) = .error (.notATag (some node)) := by
    intro node
    rcases g.graph.hasNone_or_exists node .name with hnone | ⟨o, ho⟩
    · exact .inr (Graph.tag_of_hasNone hnone)
    · obtain ⟨t, ht⟩ := h.exists_hasTag ((h.tags.nodes node).2 (h.named node o ho))
      exact .inl ⟨t, HasTag.read ht []⟩
  refine ⟨?_, htag node, Graph.typeSet_of_forall htag, ?_⟩
  · rcases g.graph.hasNone_or_exists node .first with hnone | ⟨o, ho⟩
    · rw [Graph.list_of_hasNone hnone]
      split <;> simp
    · obtain ⟨item, items, hlist⟩ := hc.cells node .first o (.inl rfl) ho
      rw [hlist.list_takeWhile]
      split <;> simp
  · rcases g.graph.hasNone_or_exists node .parameters with hnone | ⟨o, ho⟩
    · exact .inr (Graph.signature_of_hasNone hnone)
    · obtain ⟨s, hs⟩ := h.exists_hasSignature (hc.parameters node o ho)
      exact .inl ⟨s, HasSignature.read hs []⟩

/-- Whatever calls wrote to a graph, it is well formed: no node has two first items or
two rests, chains of rests are without cycles and end in the empty list, tags have one
name and at most one list of arguments, signatures have one list of parameters, and
tags contain each other to a limited depth. So lists, tags, type sets and signatures
are read to an end from every node, and the only error is that a node is not what it
is read as. The items of the lists that were written are arbitrary nodes. -/
theorem written_wellFormed (labels : Bool) (calls : List Call) :
    let g := (runAll { withLabels := labels } calls).graph
    g.WellFormed ∧ ∀ node, g.ReadsToEnd node := by
  have hshared := (Shared.start labels).runAll calls
  have hchained := (Chained.start labels).runAll calls
  exact ⟨hshared.wellFormed hchained, hshared.readsToEnd hchained⟩

/-- A list may even have its own node as an item, and is still read to its end. -/
example : ((runAll {} [.addList [.blank (.fresh 0)]]).graph.list
    (some (.blank (.fresh 0)))).error = none := by decide

end CoverageGraph

end DispatchCoverage

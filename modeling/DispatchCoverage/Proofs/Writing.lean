import DispatchCoverage.Graph.Coverage
import DispatchCoverage.Proofs.Description

/-!
# Writing tags to a coverage graph

Writing states triples about nodes made on the way and about named checks, never
about the empty list or a node that was there before. So a node that described
something keeps describing it. A node that is still being written is set apart:
no description rests on it until all its triples are stated. While a tag is
written, the tags around it are set apart in this way, and since they are nested
more deeply than the tag, none of their nodes is needed to describe it.
-/

namespace DispatchCoverage

namespace Graph

variable {g : Graph} {s s' p q o o' : Node}

/-- Stating one property says nothing about another one. -/
theorem mem_insert_ne (hpq : p ≠ q) :
    Triple.mk s p o ∈ g.insert ⟨s', q, o'⟩ ↔ Triple.mk s p o ∈ g := by
  simp only [mem_insert, Triple.mk.injEq, hpq, false_and, and_false, false_or]

/-- A property without a value gets its only value by stating it. -/
theorem HasNone.hasOnly_insert (h : g.HasNone s p) : (g.insert ⟨s, p, o⟩).HasOnly s p o := by
  intro o'
  rw [mem_insert]
  exact ⟨fun ho => ho.elim (fun heq => (Triple.mk.inj heq).2.2) fun ho => absurd ho (h o'),
    fun heq => .inl (heq ▸ rfl)⟩

/-- A property without a value keeps none when another one is stated. -/
theorem HasNone.insert_ne (h : g.HasNone s p) (hpq : p ≠ q) :
    (g.insert ⟨s', q, o⟩).HasNone s p :=
  fun o' ho => h o' ((mem_insert_ne hpq).1 ho)

/-- A property with one value keeps it when another property is stated. -/
theorem HasOnly.insert_ne (h : g.HasOnly s p o) (hpq : p ≠ q) :
    (g.insert ⟨s', q, o'⟩).HasOnly s p o :=
  fun o'' => (mem_insert_ne hpq).trans (h o'')

end Graph

namespace CoverageGraph

variable {g g' g'' : CoverageGraph} {Done : Node → Prop} {node : Node}

/-! ## Nodes made so far -/

/-- The empty list and the blank nodes made so far. -/
def Known (g : CoverageGraph) (node : Node) : Prop :=
  node = .nil ∨ ∃ k < g.next, node = .blank (.fresh k)

/-- A known node that is not being written. -/
def Settled (g : CoverageGraph) (Done : Node → Prop) (node : Node) : Prop :=
  Done node ∧ g.Known node

/-- Being done, and not the node that is being written. -/
def apart (Done : Node → Prop) (node : Node) : Node → Prop := fun s => Done s ∧ s ≠ node

/-- No known node ends a list when it is an item. -/
theorem Known.isFalsy (h : g.Known node) : node.isFalsy = false := by
  obtain rfl | ⟨k, -, rfl⟩ := h
  · decide
  · rfl

/-- A known node is none that is still to be made. -/
theorem Known.ne_fresh (h : g.Known node) : ∀ k, g.next ≤ k → node ≠ .blank (.fresh k) := by
  rintro k hk rfl
  obtain heq | ⟨j, hj, heq⟩ := h
  · exact Node.noConfusion heq
  · obtain rfl := BlankNode.fresh.inj (Node.blank.inj heq)
    omega

/-- What is known stays known when more nodes are made. -/
theorem Known.of_le (h : g.Known node) (hnext : g.next ≤ g'.next) : g'.Known node :=
  h.imp_right fun ⟨k, hk, heq⟩ => ⟨k, Nat.lt_of_lt_of_le hk hnext, heq⟩

/-- A node that was just made is known. -/
theorem known_fresh (g : CoverageGraph) : g.fresh.2.Known g.fresh.1 :=
  .inr ⟨g.next, Nat.lt_succ_self _, rfl⟩

/-- A node that is being written is not apart from itself. -/
theorem not_apart_self : ¬apart Done node node := fun h => h.2 rfl

/-- A node that is being written is not settled. -/
theorem not_settled_apart : ¬g.Settled (apart Done node) node := fun h => not_apart_self h.1

/-- Whatever is settled before a node is made is apart from it. -/
theorem settled_fresh (h : g.Settled Done node) : g.fresh.2.Settled (apart Done g.fresh.1) node :=
  ⟨⟨h.1, h.2.ne_fresh g.next (Nat.le_refl _)⟩, h.2.of_le (Nat.le_succ _)⟩

/-- A node describes a tag, by means of settled nodes. -/
abbrev HasTag (g : CoverageGraph) (Done : Node → Prop) (node : Node) (t : Tag) : Prop :=
  g.graph.IsTag (g.Settled Done) node t

/-- A node describes a type set, by means of settled nodes. -/
abbrev HasTypeSet (g : CoverageGraph) (Done : Node → Prop) (node : Node) (s : TypeSet) : Prop :=
  g.graph.IsTypeSet (g.Settled Done) node s

/-- A node describes a signature, by means of settled nodes. -/
abbrev HasSignature (g : CoverageGraph) (Done : Node → Prop) (node : Node) (s : Signature) :
    Prop :=
  g.graph.IsSignature (g.Settled Done) node s

/-! ## What is kept -/

/-- A graph that is written further keeps its triples, and says nothing new about
settled nodes or about nodes that are still to be made. -/
structure Keeps (Done : Node → Prop) (g g' : CoverageGraph) : Prop where
  /-- The nodes made so far stay made. -/
  next_le : g.next ≤ g'.next
  /-- The triples stay stated. -/
  stated : ∀ t ∈ g.graph, t ∈ g'.graph
  /-- Nothing new is stated about settled nodes. -/
  silent : ∀ s, g.Settled Done s → ∀ p o, Triple.mk s p o ∈ g'.graph → Triple.mk s p o ∈ g.graph
  /-- Nothing new is stated about nodes that are still to be made. -/
  ahead : ∀ k, g'.next ≤ k → ∀ p o,
    Triple.mk (.blank (.fresh k)) p o ∈ g'.graph → Triple.mk (.blank (.fresh k)) p o ∈ g.graph

namespace Keeps

/-- The two graphs say the same about settled nodes. -/
theorem agrees (h : Keeps Done g g') : g'.graph.Agrees g.graph (g.Settled Done) :=
  fun s hs p o => ⟨h.silent s hs p o, h.stated _⟩

/-- Known nodes stay known. -/
theorem known (h : Keeps Done g g') (hnode : g.Known node) : g'.Known node :=
  hnode.of_le h.next_le

/-- A node that is not still to be made stays so. -/
theorem ne_fresh (h : Keeps Done g g') (hmade : ∀ k, g.next ≤ k → node ≠ .blank (.fresh k)) :
    ∀ k, g'.next ≤ k → node ≠ .blank (.fresh k) :=
  fun k hk => hmade k (Nat.le_trans h.next_le hk)

/-- Settled nodes stay settled. -/
theorem settled (h : Keeps Done g g') (hnode : g.Settled Done node) : g'.Settled Done node :=
  ⟨hnode.1, h.known hnode.2⟩

/-- Whatever is settled while a node is being written is settled afterwards. -/
theorem settled_of_apart {s : Node} (h : Keeps (apart Done node) g g')
    (hs : g.Settled (apart Done node) s) : g'.Settled Done s :=
  ⟨hs.1.1, h.known hs.2⟩

/-- A graph keeps what it says. -/
theorem refl (g : CoverageGraph) : Keeps Done g g :=
  ⟨Nat.le_refl _, fun _ h => h, fun _ _ _ _ h => h, fun _ _ _ _ h => h⟩

/-- Noting the nodes of tags and signatures keeps what the graph says. -/
theorem of_eq (hgraph : g'.graph = g.graph) (hnext : g'.next = g.next) : Keeps Done g g' :=
  ⟨Nat.le_of_eq hnext.symm, fun _ h => hgraph ▸ h, fun _ _ _ _ h => hgraph ▸ h,
    fun _ _ _ _ h => hgraph ▸ h⟩

/-- What is kept twice is kept. -/
theorem trans (h : Keeps Done g g') (h' : Keeps Done g' g'') : Keeps Done g g'' where
  next_le := Nat.le_trans h.next_le h'.next_le
  stated t ht := h'.stated t (h.stated t ht)
  silent s hs p o ho := h.silent s hs p o (h'.silent s (h.settled hs) p o ho)
  ahead k hk p o ho := h.ahead k (Nat.le_trans h'.next_le hk) p o (h'.ahead k hk p o ho)

/-- What is kept while a node that was just made is being written is kept
altogether. -/
theorem of_fresh (h : Keeps (apart Done g.fresh.1) g.fresh.2 g') : Keeps Done g g' where
  next_le := Nat.le_of_succ_le h.next_le
  stated := h.stated
  silent s hs := h.silent s (settled_fresh hs)
  ahead := h.ahead

/-- A node that describes a tag keeps describing it. -/
theorem hasTag {t : Tag} (h : Keeps Done g g') (ht : g.HasTag Done node t) :
    g'.HasTag Done node t :=
  h.agrees.isTag (fun _ => h.settled) ht

/-- A node that describes a tag while another one is being written describes it
afterwards. -/
theorem hasTag_of_apart {s : Node} {t : Tag} (h : Keeps (apart Done node) g g')
    (ht : g.HasTag (apart Done node) s t) : g'.HasTag Done s t :=
  h.agrees.isTag (fun _ => h.settled_of_apart) ht

/-- A node that describes a type set keeps describing it. -/
theorem hasTypeSet {s : TypeSet} (h : Keeps Done g g') (hs : g.HasTypeSet Done node s) :
    g'.HasTypeSet Done node s :=
  h.agrees.isTypeSet (fun _ => h.settled) hs

/-- A node that describes a signature keeps describing it. -/
theorem hasSignature {s : Signature} (h : Keeps Done g g') (hs : g.HasSignature Done node s) :
    g'.HasSignature Done node s :=
  h.agrees.isSignature (fun _ => h.settled) hs

end Keeps

/-- Stating a property of a node that is made, but not settled, keeps what is said
about the settled nodes. -/
theorem state_keeps {p o : Node} (hsettled : ¬g.Settled Done node)
    (hmade : ∀ k, g.next ≤ k → node ≠ .blank (.fresh k)) : Keeps Done g (g.state node p o) where
  next_le := Nat.le_refl _
  stated t ht := Graph.mem_insert.2 (.inr ht)
  silent s hs p' o' ho := by
    rcases Graph.mem_insert.1 ho with heq | ho
    · exact absurd hs ((Triple.mk.inj heq).1 ▸ hsettled)
    · exact ho
  ahead k hk p' o' ho := by
    rcases Graph.mem_insert.1 ho with heq | ho
    · exact absurd (Triple.mk.inj heq).1.symm (hmade k hk)
    · exact ho

/-- Labelling such a node keeps it, too. -/
theorem stateLabel_keeps (text : String) (hsettled : ¬g.Settled Done node)
    (hmade : ∀ k, g.next ≤ k → node ≠ .blank (.fresh k)) :
    Keeps Done g (g.stateLabel node text) := by
  unfold stateLabel
  split
  · exact state_keeps hsettled hmade
  · exact .refl g

/-- A label says nothing about other properties. -/
theorem mem_stateLabel {s p o : Node} {text : String} (hp : p ≠ .label) :
    Triple.mk s p o ∈ (g.stateLabel node text).graph ↔ Triple.mk s p o ∈ g.graph := by
  unfold stateLabel
  split
  · exact Graph.mem_insert_ne hp
  · exact Iff.rfl

/-- A label leaves the nodes that are noted for tags and signatures alone. -/
theorem noted_stateLabel (g : CoverageGraph) (node : Node) (text : String) :
    (g.stateLabel node text).tagNodes = g.tagNodes ∧
      (g.stateLabel node text).signatureNodes = g.signatureNodes := by
  unfold stateLabel
  split <;> exact ⟨rfl, rfl⟩

/-- A graph to write to: nothing is stated about the empty list and the nodes that
are still to be made, and they are not being written. -/
structure Ready (Done : Node → Prop) (g : CoverageGraph) : Prop where
  /-- The empty list is not being written. -/
  nil_done : Done .nil
  /-- The nodes that are still to be made are not being written. -/
  ahead_done : ∀ k, g.next ≤ k → Done (.blank (.fresh k))
  /-- Nothing is stated about the empty list. -/
  nil_unstated : ∀ p, g.graph.HasNone .nil p
  /-- Nothing is stated about the nodes that are still to be made. -/
  ahead_unstated : ∀ k, g.next ≤ k → ∀ p, g.graph.HasNone (.blank (.fresh k)) p

namespace Ready

/-- A graph that was written to can be written to again. -/
theorem keeps (h : Ready Done g) (hk : Keeps Done g g') : Ready Done g' where
  nil_done := h.nil_done
  ahead_done k hnext := h.ahead_done k (Nat.le_trans hk.next_le hnext)
  nil_unstated p := hk.agrees.hasNone ⟨h.nil_done, .inl rfl⟩ (h.nil_unstated p)
  ahead_unstated k hnext p o ho :=
    h.ahead_unstated k (Nat.le_trans hk.next_le hnext) p o (hk.ahead k hnext p o ho)

/-- While a node that was just made is being written, the graph can be written
to. -/
theorem fresh (h : Ready Done g) : Ready (apart Done g.fresh.1) g.fresh.2 where
  nil_done := ⟨h.nil_done, Node.noConfusion⟩
  ahead_done k hnext :=
    ⟨h.ahead_done k (Nat.le_of_succ_le hnext), (g.known_fresh.ne_fresh k hnext).symm⟩
  nil_unstated := h.nil_unstated
  ahead_unstated k hnext := h.ahead_unstated k (Nat.le_of_succ_le hnext)

/-- The next node to be made is not being written. -/
theorem fresh_done (h : Ready Done g) : Done g.fresh.1 := h.ahead_done g.next (Nat.le_refl _)

/-- Nothing is stated about the next node to be made. -/
theorem fresh_unstated (h : Ready Done g) (p : Node) : g.graph.HasNone g.fresh.1 p :=
  h.ahead_unstated g.next (Nat.le_refl _) p

end Ready

/-! ## Lists -/

/-- Writing a list says nothing about known nodes. -/
theorem addList_keeps (g : CoverageGraph) (items : List Node) :
    Keeps Done g (g.addList items).2 := by
  induction items generalizing g Done with
  | nil => exact .refl g
  | cons item items ih =>
    have hopen : Keeps (apart Done g.fresh.1) g.fresh.2 (g.fresh.2.state g.fresh.1 .first item) :=
      state_keeps not_settled_apart g.known_fresh.ne_fresh
    have htail := hopen.trans (ih (g.fresh.2.state g.fresh.1 .first item))
    exact (htail.trans
      (state_keeps not_settled_apart (htail.known g.known_fresh).ne_fresh)).of_fresh

/-- Writing a list leaves the nodes that are noted for tags and signatures alone. -/
theorem noted_addList (g : CoverageGraph) (items : List Node) :
    (g.addList items).2.tagNodes = g.tagNodes ∧
      (g.addList items).2.signatureNodes = g.signatureNodes := by
  induction items generalizing g with
  | nil => exact ⟨rfl, rfl⟩
  | cons item items ih => exact ih (g.fresh.2.state g.fresh.1 .first item)

/-- A blank node that was made between two graphs. -/
def Made (g g' : CoverageGraph) (node : Node) : Prop :=
  ∃ k, g.next ≤ k ∧ k < g'.next ∧ node = .blank (.fresh k)

/-- A node that was made is known. -/
theorem Made.known (h : g.Made g' node) : g'.Known node :=
  .inr (h.imp fun _ hk => hk.2)

/-- A graph that lists can be written to: the empty list has no first item, and the
nodes that are still to be made have neither a first item nor a rest. -/
structure TakesLists (g : CoverageGraph) : Prop where
  /-- The empty list has no first item. -/
  nil_first : g.graph.HasNone .nil .first
  /-- The nodes that are still to be made are not part of a list. -/
  ahead : ∀ k, g.next ≤ k → ∀ p, p = .first ∨ p = .rest → g.graph.HasNone (.blank (.fresh k)) p

namespace TakesLists

/-- Lists can be written to a graph that was written further. -/
theorem keeps (h : g.TakesLists) (hk : Keeps Done g g') (hnil : Done .nil) : g'.TakesLists where
  nil_first := hk.agrees.hasNone ⟨hnil, .inl rfl⟩ h.nil_first
  ahead k hnext p hp o ho :=
    h.ahead k (Nat.le_trans hk.next_le hnext) p hp o (hk.ahead k hnext p o ho)

/-- Lists can be written after another node was made. -/
theorem fresh (h : g.TakesLists) : g.fresh.2.TakesLists :=
  ⟨h.nil_first, fun k hk => h.ahead k (Nat.le_of_succ_le hk)⟩

end TakesLists

/-- A list that was written is described by its node, by means of the nodes made for
it. -/
theorem addList_isList (g : CoverageGraph) (items : List Node) (hg : g.TakesLists) :
    (g.addList items).2.graph.IsList
      (fun node => node = .nil ∨ g.Made (g.addList items).2 node) (g.addList items).1 items := by
  induction items generalizing g with
  | nil => exact .nil (.inl rfl) hg.nil_first
  | cons item items ih =>
    set first := g.fresh.2.state g.fresh.1 .first item
    have hopen : Keeps (apart (fun _ => True) g.fresh.1) g.fresh.2 first :=
      state_keeps not_settled_apart g.known_fresh.ne_fresh
    have htail := ih first (hg.fresh.keeps hopen ⟨trivial, Node.noConfusion⟩)
    have hrest : Keeps (fun _ => True) first (first.addList items).2 := addList_keeps first items
    have hnode : first.Known g.fresh.1 := g.known_fresh
    refine .cons (.inr ⟨g.next, Nat.le_refl _, hrest.next_le, rfl⟩) ?_ ?_
      (htail.congr (fun s hs => ?_) fun s hs p _ o => ?_)
    · have hitem : first.graph.HasOnly g.fresh.1 .first item :=
        Graph.HasNone.hasOnly_insert (hg.ahead g.next (Nat.le_refl _) .first (.inl rfl))
      exact (hrest.agrees.hasOnly ⟨trivial, hnode⟩ hitem).insert_ne (by decide)
    · have hnone : first.graph.HasNone g.fresh.1 .rest :=
        Graph.HasNone.insert_ne (hg.ahead g.next (Nat.le_refl _) .rest (.inr rfl)) (by decide)
      exact (hrest.agrees.hasNone ⟨trivial, hnode⟩ hnone).hasOnly_insert
    · exact hs.imp_right fun ⟨k, hle, hlt⟩ => ⟨k, Nat.le_of_succ_le hle, hlt⟩
    · -- The rest is stated about the new node, which no node behind it is.
      have hne : s ≠ g.fresh.1 := by
        rcases hs with rfl | ⟨k, hle, -, rfl⟩
        · exact Node.noConfusion
        · exact (g.known_fresh.ne_fresh k hle).symm
      exact Graph.mem_insert.trans (or_iff_right fun heq => hne (Triple.mk.inj heq).1)

/-- A list that was written is described by settled nodes. -/
theorem Ready.isList_addList (hg : Ready Done g) (items : List Node) :
    (g.addList items).2.graph.IsList ((g.addList items).2.Settled Done) (g.addList items).1
      items := by
  have htakes : g.TakesLists :=
    ⟨hg.nil_unstated _, fun k hk p _ => hg.ahead_unstated k hk p⟩
  refine (addList_isList g items htakes).congr (fun s hs => ?_) fun _ _ _ _ _ => Iff.rfl
  rcases hs with rfl | hmade
  · exact ⟨hg.nil_done, .inl rfl⟩
  · obtain ⟨k, hk, -, rfl⟩ := id hmade
    exact ⟨hg.ahead_done k hk, hmade.known⟩

/-- State a list of nodes as a property of a node. -/
def stateList (g : CoverageGraph) (node p : Node) (items : List Node) : CoverageGraph :=
  (g.addList items).2.state node p (g.addList items).1

section StateList

variable {p : Node} {items : List Node} (hnode : g.Known node)

include hnode

/-- Stating a list as a property of a node that is being written says nothing
about the settled nodes. -/
theorem stateList_keeps (hbusy : ¬Done node) : Keeps Done g (g.stateList node p items) := by
  have hlist : Keeps Done g (g.addList items).2 := addList_keeps g items
  exact hlist.trans (state_keeps (fun h => hbusy h.1) (hlist.known hnode).ne_fresh)

/-- Stating a list as a property says nothing about the other properties. -/
theorem mem_stateList {q o : Node} (hq : q ≠ p) :
    Triple.mk node q o ∈ (g.stateList node p items).graph ↔ Triple.mk node q o ∈ g.graph := by
  have hlist : Keeps (fun _ => True) g (g.addList items).2 := addList_keeps g items
  exact (Graph.mem_insert_ne hq).trans (hlist.agrees node ⟨trivial, hnode⟩ q o)

/-- A property of a node that is being written gets a list as its only value. -/
theorem exists_isList_stateList (hg : Ready Done g) (hbusy : ¬Done node)
    (hnone : g.graph.HasNone node p) (items : List Node) :
    ∃ list, (g.stateList node p items).graph.HasOnly node p list ∧
      (g.stateList node p items).graph.IsList ((g.stateList node p items).Settled Done) list
        items := by
  have hlist : Keeps (fun _ => True) g (g.addList items).2 := addList_keeps g items
  have hclose : Keeps Done _ (g.stateList node p items) :=
    state_keeps (fun h => hbusy h.1) (hlist.known hnode).ne_fresh
  have hnone' := hlist.agrees.hasNone ⟨trivial, hnode⟩ hnone
  exact ⟨_, hnone'.hasOnly_insert,
    hclose.agrees.isList (fun _ => hclose.settled) (hg.isList_addList items)⟩

end StateList

/-! ## Tags in steps -/

/-- The graph in which a tag has a node and a name, but no arguments yet. -/
def openTag (g : CoverageGraph) (n : Name) (ts : List Tag) : CoverageGraph :=
  ({ g.fresh.2 with tagNodes := (.mk n ts, g.fresh.1) :: g.tagNodes }.state g.fresh.1 .type
    .tagClass).state g.fresh.1 .name (.literal (.text n.text))

/-- State the arguments of a tag, if there are any. -/
def stateArguments (g : CoverageGraph) (node : Node) (ts : List Tag) : CoverageGraph :=
  if ts.isEmpty then g
  else (g.addTags ts).2.stateList node .arguments (g.addTags ts).1

/-- A tag that was written before keeps its node. -/
theorem addTag_of_some {t : Tag} (h : g.tagNode? t = some node) : g.addTag t = (node, g) := by
  cases t
  rw [addTag, h]

/-- Writing another tag names it, writes its arguments and labels it. -/
theorem addTag_of_none {n : Name} {ts : List Tag} (h : g.tagNode? (.mk n ts) = none) :
    g.addTag (.mk n ts) = (g.fresh.1,
      ((g.openTag n ts).stateArguments g.fresh.1 ts).stateLabel g.fresh.1
        (Tag.text {} (.mk n ts))) := by
  rw [addTag, h]
  rfl

/-- Naming a tag says nothing about known nodes. -/
theorem openTag_keeps (g : CoverageGraph) (n : Name) (ts : List Tag) :
    Keeps (apart Done g.fresh.1) g.fresh.2 (g.openTag n ts) := by
  set noted : CoverageGraph :=
    { g.fresh.2 with tagNodes := (.mk n ts, g.fresh.1) :: g.tagNodes }
  have hnote : Keeps (apart Done g.fresh.1) g.fresh.2 noted := .of_eq rfl rfl
  have hmade : ∀ k, noted.next ≤ k → g.fresh.1 ≠ .blank (.fresh k) := g.known_fresh.ne_fresh
  have htype : Keeps (apart Done g.fresh.1) noted (noted.state g.fresh.1 .type .tagClass) :=
    state_keeps not_settled_apart hmade
  exact (hnote.trans htype).trans (state_keeps not_settled_apart hmade)

/-- Stating the arguments of a node that is being written says nothing about the
settled nodes, if writing the arguments does not. -/
theorem stateArguments_keeps {ts : List Tag} (hts : Keeps Done g (g.addTags ts).2)
    (hbusy : ¬Done node) (hnode : g.Known node) : Keeps Done g (g.stateArguments node ts) := by
  unfold stateArguments
  split
  · exact .refl g
  · exact hts.trans (stateList_keeps (hts.known hnode) hbusy)

mutual

/-- Writing a tag says nothing about known nodes. -/
theorem addTag_keeps (g : CoverageGraph) (Done : Node → Prop) :
    ∀ t : Tag, Keeps Done g (g.addTag t).2
  | .mk n ts => by
    cases h : g.tagNode? (.mk n ts) with
    | some node =>
      rw [addTag_of_some h]
      exact .refl g
    | none =>
      rw [addTag_of_none h]
      have hopen : Keeps (apart Done g.fresh.1) g.fresh.2 (g.openTag n ts) := g.openTag_keeps n ts
      have harguments := hopen.trans (stateArguments_keeps
        (addTags_keeps (g.openTag n ts) (apart Done g.fresh.1) ts) not_apart_self g.known_fresh)
      exact (harguments.trans (stateLabel_keeps _ not_settled_apart
        (harguments.known g.known_fresh).ne_fresh)).of_fresh

/-- Writing several tags says nothing about known nodes. -/
theorem addTags_keeps (g : CoverageGraph) (Done : Node → Prop) :
    ∀ ts : List Tag, Keeps Done g (g.addTags ts).2
  | [] => .refl g
  | t :: ts => (addTag_keeps g Done t).trans (addTags_keeps (g.addTag t).2 Done ts)

end

/-- Stating the arguments of a node says nothing about its other properties. -/
theorem mem_stateArguments {p o : Node} (ts : List Tag) (hnode : g.Known node)
    (hp : p ≠ .arguments) :
    Triple.mk node p o ∈ (g.stateArguments node ts).graph ↔ Triple.mk node p o ∈ g.graph := by
  unfold stateArguments
  split
  · exact Iff.rfl
  · have hts := addTags_keeps g (fun _ => True) ts
    exact (mem_stateList (hts.known hnode) hp).trans (hts.agrees node ⟨trivial, hnode⟩ p o)

/-! ## Tags are described by their nodes -/

/-- Every tag of a kind that has a node is described by it. -/
def DescribesTags (Done : Node → Prop) (p : Tag → Prop) (g : CoverageGraph) : Prop :=
  ∀ entry ∈ g.tagNodes, p entry.1 → g.HasTag Done entry.2 entry.1

/-- Every tag that has a node in the second graph, but had none in the first one,
is described by its node. -/
def DescribesNewTags (Done : Node → Prop) (g g' : CoverageGraph) : Prop :=
  ∀ entry ∈ g'.tagNodes, entry ∈ g.tagNodes ∨ g'.HasTag Done entry.2 entry.1

/-- When the tags that had nodes and the new ones are described, all are. -/
theorem DescribesTags.keeps {p : Tag → Prop} (h : DescribesTags Done p g)
    (hk : Keeps Done g g') (hnew : DescribesNewTags Done g g') : DescribesTags Done p g' :=
  fun entry hentry hp => (hnew entry hentry).elim (fun hold => hk.hasTag (h entry hold hp)) id

/-- What is new after two steps is new after the first one or the second one. -/
theorem DescribesNewTags.trans (h : DescribesNewTags Done g g')
    (h' : DescribesNewTags Done g' g'') (hk : Keeps Done g' g'') : DescribesNewTags Done g g'' :=
  fun entry hentry => (h' entry hentry).elim (fun hmid => (h entry hmid).imp_right hk.hasTag) .inr

/-- What is found for a key is noted with it. -/
theorem mem_of_find?_key {α : Type} [DecidableEq α] {entries : List (α × Node)} {a : α}
    (h : (entries.find? (fun entry => entry.1 == a)).map Prod.snd = some node) :
    (a, node) ∈ entries := by
  obtain ⟨⟨b, node⟩, hfind, rfl⟩ := Option.map_eq_some_iff.1 h
  obtain rfl : b = a := by simpa only [beq_iff_eq] using List.find?_some hfind
  exact List.mem_of_find?_eq_some hfind

/-- When tags are described by their nodes, a node that is being written gets
arguments that describe them. -/
theorem exists_hasArguments {ts : List Tag} (hg : Ready Done g) (hbusy : ¬Done node)
    (hnode : g.Known node) (hnone : g.graph.HasNone node .arguments)
    (hts : List.Forall₂ ((g.addTags ts).2.HasTag Done) (g.addTags ts).1 ts) :
    ∃ items, (g.stateArguments node ts).graph.HasArguments
      ((g.stateArguments node ts).Settled Done) node items ∧
        List.Forall₂ ((g.stateArguments node ts).HasTag Done) items ts := by
  cases ts with
  | nil => exact ⟨[], hnone, .nil⟩
  | cons t ts =>
    have htags := addTags_keeps g (fun _ => True) (t :: ts)
    have harguments := exists_isList_stateList (htags.known hnode)
      (hg.keeps (addTags_keeps g Done (t :: ts))) hbusy
      (htags.agrees.hasNone ⟨trivial, hnode⟩ hnone) (g.addTags (t :: ts)).1
    exact ⟨(g.addTags (t :: ts)).1, harguments, hts.imp fun _ _ h =>
      (stateList_keeps (htags.known hnode) hbusy).hasTag h⟩

/-- The tags that are new with the arguments of a node are described. -/
theorem DescribesNewTags.stateArguments {ts : List Tag}
    (h : DescribesNewTags Done g (g.addTags ts).2) (hbusy : ¬Done node) (hnode : g.Known node) :
    DescribesNewTags Done g (g.stateArguments node ts) := by
  unfold CoverageGraph.stateArguments
  split
  · exact fun _ => .inl
  · have hnode' := (addTags_keeps g Done ts).known hnode
    refine h.trans (fun entry hentry => .inl ?_) (stateList_keeps hnode' hbusy)
    exact (noted_addList (g.addTags ts).2 (g.addTags ts).1).1 ▸ hentry

/-- A labelled node with the name and the arguments of a tag describes the tag. -/
theorem hasTag_stateLabel {n : Name} {ts : List Tag} {items : List Node}
    (text : String) (hdone : Done node) (hnode : g.Known node)
    (hname : g.graph.HasOnly node .name (.literal (.text n.text)))
    (harguments : g.graph.HasArguments (g.Settled (apart Done node)) node items)
    (hitems : List.Forall₂ (g.HasTag (apart Done node)) items ts) :
    (g.stateLabel node text).HasTag Done node (.mk n ts) := by
  have hlabel : Keeps (apart Done node) g (g.stateLabel node text) :=
    stateLabel_keeps text not_settled_apart hnode.ne_fresh
  simp only [HasTag, Graph.IsTag]
  refine ⟨⟨hdone, hlabel.known hnode⟩, fun o => (mem_stateLabel (by decide)).trans (hname o),
    items, ?_, Graph.areTags_iff.2 (hitems.imp fun _ _ h => hlabel.hasTag_of_apart h)⟩
  exact hlabel.agrees.hasArguments (fun _ => hlabel.settled_of_apart)
    (fun _ => mem_stateLabel (by decide)) harguments

/-- While a tag is being written, the tags that are nested less deeply stay
described. -/
theorem DescribesTags.openTag {n : Name} {ts : List Tag}
    (h : DescribesTags Done (fun u => u.nesting ≤ Tag.nestingAll ts) g) :
    DescribesTags (apart Done g.fresh.1) (fun u => u.nesting < Tag.nestingAll ts)
      (g.openTag n ts) := by
  have hopen : Keeps (apart Done g.fresh.1) g.fresh.2 (g.openTag n ts) := g.openTag_keeps n ts
  intro entry hentry hlt
  rcases List.mem_cons.1 hentry with rfl | hold
  · -- The tag itself has a node by now, but it is nested too deeply.
    exact absurd hlt (Nat.lt_irrefl _)
  · exact hopen.of_fresh.agrees.isTag (fun _ hs => hopen.settled (settled_fresh hs))
      (h entry hold (Nat.le_of_lt hlt))

/-- A tag is described by its node when its arguments are described by theirs. -/
theorem describes_stateArguments {n : Name} {ts : List Tag} (text : String) (hg : Ready Done g)
    (hts : List.Forall₂ (((g.openTag n ts).addTags ts).2.HasTag (apart Done g.fresh.1))
      ((g.openTag n ts).addTags ts).1 ts)
    (hnew : DescribesNewTags (apart Done g.fresh.1) (g.openTag n ts)
      ((g.openTag n ts).addTags ts).2) :
    (((g.openTag n ts).stateArguments g.fresh.1 ts).stateLabel g.fresh.1 text).HasTag Done g.fresh.1
        (.mk n ts) ∧
      DescribesNewTags Done g
        (((g.openTag n ts).stateArguments g.fresh.1 ts).stateLabel g.fresh.1 text) := by
  have hready := hg.fresh.keeps (g.openTag_keeps n ts)
  have hnode : (g.openTag n ts).Known g.fresh.1 := g.known_fresh
  have hname : (g.openTag n ts).graph.HasOnly g.fresh.1 .name (.literal (.text n.text)) :=
    ((hg.fresh_unstated .name).insert_ne (by decide)).hasOnly_insert
  have hbare : (g.openTag n ts).graph.HasNone g.fresh.1 .arguments :=
    ((hg.fresh_unstated .arguments).insert_ne (by decide)).insert_ne (by decide)
  obtain ⟨items, harguments, hitems⟩ := exists_hasArguments hready not_apart_self hnode hbare hts
  have hkeeps := stateArguments_keeps
    (addTags_keeps (g.openTag n ts) (apart Done g.fresh.1) ts) not_apart_self hnode
  have hnode' := hkeeps.known hnode
  have htag := hasTag_stateLabel text hg.fresh_done hnode'
    (fun o => (mem_stateArguments ts hnode (by decide)).trans (hname o)) harguments hitems
  refine ⟨htag, fun entry hentry => ?_⟩
  rw [(noted_stateLabel _ _ _).1] at hentry
  rcases hnew.stateArguments not_apart_self hnode entry hentry with hentry | hentry
  · rcases List.mem_cons.1 hentry with rfl | hold
    · exact .inr htag
    · exact .inl hold
  · exact .inr ((stateLabel_keeps text not_settled_apart hnode'.ne_fresh).hasTag_of_apart hentry)

mutual

/-- The node of a tag describes it once it is written, and so do the nodes of its
arguments. Tags that may not be described yet are nested too deeply to be among
them. -/
theorem addTag_hasTag (g : CoverageGraph) (Done : Node → Prop) : ∀ t : Tag, Ready Done g →
    DescribesTags Done (fun u => u.nesting ≤ t.nesting) g →
    (g.addTag t).2.HasTag Done (g.addTag t).1 t ∧ DescribesNewTags Done g (g.addTag t).2
  | .mk n ts, hg, hknown => by
    cases h : g.tagNode? (.mk n ts) with
    | some node =>
      rw [addTag_of_some h]
      exact ⟨hknown _ (mem_of_find?_key h) (Nat.le_refl _), fun _ => .inl⟩
    | none =>
      rw [addTag_of_none h]
      obtain ⟨hts, hnew⟩ := addTags_hasTag (g.openTag n ts) (apart Done g.fresh.1) ts
        (hg.fresh.keeps (g.openTag_keeps n ts)) hknown.openTag
      exact describes_stateArguments _ hg hts hnew

/-- The nodes of several tags describe them once they are written. -/
theorem addTags_hasTag (g : CoverageGraph) (Done : Node → Prop) : ∀ ts : List Tag, Ready Done g →
    DescribesTags Done (fun u => u.nesting < Tag.nestingAll ts) g →
    List.Forall₂ ((g.addTags ts).2.HasTag Done) (g.addTags ts).1 ts ∧
      DescribesNewTags Done g (g.addTags ts).2
  | [], _, _ => ⟨.nil, fun _ => .inl⟩
  | t :: ts, hg, hknown => by
    have hkeep := addTag_keeps g Done t
    have hkeep' := addTags_keeps (g.addTag t).2 Done ts
    rw [Tag.nestingAll] at hknown
    obtain ⟨hhead, hnew⟩ := addTag_hasTag g Done t hg fun entry hentry hle =>
      hknown entry hentry (by omega)
    obtain ⟨htail, hnew'⟩ := addTags_hasTag (g.addTag t).2 Done ts (hg.keeps hkeep)
      fun entry hentry hlt => hknown.keeps hkeep hnew entry hentry (by omega)
    exact ⟨.cons (hkeep'.hasTag hhead) htail, hnew.trans hnew' hkeep'⟩

end

end CoverageGraph

end DispatchCoverage

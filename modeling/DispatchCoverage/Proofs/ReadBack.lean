import DispatchCoverage.Proofs.Writing

/-!
# Reading back what was written

Every call that writes to a coverage graph leaves all nodes described that a tag
or a signature was ever given, and the node that it returns as well. By
induction this holds along every sequence of calls, so that tags, type sets and
signatures are read back from their nodes, at once and after any later calls.
-/

namespace DispatchCoverage

namespace CoverageGraph

variable {g g' g'' : CoverageGraph} {Done : Node → Prop} {node : Node}

/-! ## Type sets -/

/-- Stating the members of a node that is being written says nothing about the
settled nodes. -/
theorem addMembers_keeps (hbusy : ¬Done node) (hnode : g.Known node) (ts : List Tag) :
    Keeps Done g (g.addMembers node ts) := by
  induction ts generalizing g with
  | nil => exact .refl g
  | cons t ts ih =>
    have htag := addTag_keeps g Done t
    have hmember : Keeps Done _ ((g.addTag t).2.state node .member (g.addTag t).1) :=
      state_keeps (fun h => hbusy h.1) (htag.known hnode).ne_fresh
    exact (htag.trans hmember).trans (ih (htag.known hnode))

/-- The graph in which a type set has a node, but no members yet. -/
def openTypeSet (g : CoverageGraph) : CoverageGraph :=
  g.fresh.2.state g.fresh.1 .type .typeSetClass

/-- Giving a type set a node says nothing about known nodes. -/
theorem openTypeSet_keeps (g : CoverageGraph) :
    Keeps (apart Done g.fresh.1) g.fresh.2 g.openTypeSet :=
  state_keeps not_settled_apart g.known_fresh.ne_fresh

/-- The node of a type set is known. -/
theorem known_openTypeSet (g : CoverageGraph) : g.openTypeSet.Known g.fresh.1 := g.known_fresh

/-- Writing a type set says nothing about known nodes. -/
theorem addTypeSet_keeps (g : CoverageGraph) (s : TypeSet) : Keeps Done g (g.addTypeSet s).2 :=
  (g.openTypeSet_keeps.trans
    (addMembers_keeps not_apart_self g.known_openTypeSet s.toList)).of_fresh

/-- Writing several type sets says nothing about known nodes. -/
theorem addTypeSets_keeps (g : CoverageGraph) (ss : List TypeSet) :
    Keeps Done g (g.addTypeSets ss).2 := by
  induction ss generalizing g with
  | nil => exact .refl g
  | cons s ss ih => exact (addTypeSet_keeps g s).trans (ih (g.addTypeSet s).2)

/-- A graph to write to, in which every tag that has a node is described by it. -/
structure TagSound (Done : Node → Prop) (g : CoverageGraph) : Prop extends Ready Done g where
  /-- The tags that have nodes are described. -/
  tags : DescribesTags Done (fun _ => True) g

namespace TagSound

/-- Whatever leaves the nodes of tags alone leaves the tags described. -/
theorem keeps (h : TagSound Done g) (hk : Keeps Done g g') (htags : g'.tagNodes = g.tagNodes) :
    TagSound Done g' :=
  ⟨h.toReady.keeps hk, h.tags.keeps hk fun _ hentry => .inl (htags ▸ hentry)⟩

/-- While a node that was just made is being written, the tags are described. -/
theorem fresh (h : TagSound Done g) : TagSound (apart Done g.fresh.1) g.fresh.2 where
  toReady := h.toReady.fresh
  tags entry hentry hp :=
    (Keeps.refl g).agrees.isTag (fun _ => settled_fresh) (h.tags entry hentry hp)

/-- Tags that are described while a node is being written are described
afterwards. -/
theorem of_apart (h : TagSound (apart Done node) g) (hk : Keeps (apart Done node) g g')
    (hg : Ready Done g') (htags : g'.tagNodes = g.tagNodes) : TagSound Done g' where
  toReady := hg
  tags entry hentry hp := hk.hasTag_of_apart (h.tags entry (htags ▸ hentry) hp)

/-- After a tag was written, the tags are described, and so is that tag by the
node returned for it. -/
theorem addTag (h : TagSound Done g) (t : Tag) :
    TagSound Done (g.addTag t).2 ∧ (g.addTag t).2.HasTag Done (g.addTag t).1 t := by
  have hkeeps := addTag_keeps g Done t
  obtain ⟨htag, hnew⟩ := addTag_hasTag g Done t h.toReady fun entry hentry _ =>
    h.tags entry hentry trivial
  exact ⟨⟨h.toReady.keeps hkeeps, h.tags.keeps hkeeps hnew⟩, htag⟩

/-- The members of a node that is being written are those it had and the nodes of
the tags stated as members. -/
theorem addMembers (h : TagSound Done g) (hbusy : ¬Done node) (hnode : g.Known node)
    (ts : List Tag) :
    TagSound Done (g.addMembers node ts) ∧
      (∀ member, Triple.mk node .member member ∈ (g.addMembers node ts).graph →
        Triple.mk node .member member ∈ g.graph ∨
          ∃ t ∈ ts, (g.addMembers node ts).HasTag Done member t) ∧
      ∀ t ∈ ts, ∃ member, Triple.mk node .member member ∈ (g.addMembers node ts).graph ∧
        (g.addMembers node ts).HasTag Done member t := by
  induction ts generalizing g with
  | nil => exact ⟨h, fun _ => .inl, fun _ ht => absurd ht List.not_mem_nil⟩
  | cons t ts ih =>
    obtain ⟨hsound, htag⟩ := h.addTag t
    have hkeeps := addTag_keeps g (fun _ => True) t
    have hstate : Keeps Done (g.addTag t).2 ((g.addTag t).2.state node .member (g.addTag t).1) :=
      state_keeps (fun h => hbusy h.1) (hkeeps.known hnode).ne_fresh
    have hrest : Keeps Done _ (g.addMembers node (t :: ts)) :=
      addMembers_keeps hbusy (hstate.known (hkeeps.known hnode)) ts
    -- The tag is described by its node whatever members are stated after it.
    have htag' := (hstate.trans hrest).hasTag htag
    obtain ⟨hfinal, hmembers, htags⟩ := ih (hsound.keeps hstate rfl) (hkeeps.known hnode)
    refine ⟨hfinal, fun member hmember => ?_, List.forall_mem_cons.2 ⟨⟨_, hrest.stated _
      (Graph.mem_insert.2 (.inl rfl)), htag'⟩, htags⟩⟩
    rcases hmembers member hmember with hmember | ⟨u, hu, hdescribed⟩
    · rcases Graph.mem_insert.1 hmember with heq | hmember
      · obtain ⟨-, -, rfl⟩ := Triple.mk.inj heq
        exact .inr ⟨t, List.mem_cons_self, htag'⟩
      · exact .inl (hkeeps.silent node ⟨trivial, hnode⟩ _ _ hmember)
    · exact .inr ⟨u, List.mem_cons_of_mem t hu, hdescribed⟩

/-- The node of a type set that was written describes it. -/
theorem addTypeSet (h : TagSound Done g) (s : TypeSet) :
    TagSound Done (g.addTypeSet s).2 ∧ (g.addTypeSet s).2.HasTypeSet Done (g.addTypeSet s).1 s := by
  obtain ⟨hsound, hmembers, htags⟩ := (h.fresh.keeps g.openTypeSet_keeps rfl).addMembers
    not_apart_self g.known_openTypeSet s.toList
  have hnone : g.openTypeSet.graph.HasNone g.fresh.1 .member :=
    (h.fresh_unstated .member).insert_ne (by decide)
  have hknown : Keeps (apart Done g.fresh.1) g.openTypeSet (g.addTypeSet s).2 :=
    addMembers_keeps not_apart_self g.known_openTypeSet s.toList
  refine ⟨hsound.of_apart (.refl _) (h.toReady.keeps (addTypeSet_keeps g s)) rfl,
    ⟨h.fresh_done, hknown.known g.known_openTypeSet⟩, fun member hmember => ?_, fun t ht => ?_⟩
  · rcases hmembers member hmember with hmember | ⟨t, ht, hdescribed⟩
    · exact absurd hmember (hnone member)
    · exact ⟨t, ht, (Keeps.refl _).hasTag_of_apart hdescribed⟩
  · obtain ⟨member, hmember, hdescribed⟩ := htags t ht
    exact ⟨member, hmember, (Keeps.refl _).hasTag_of_apart hdescribed⟩

/-- The nodes of several type sets that were written describe them. -/
theorem addTypeSets (h : TagSound Done g) (ss : List TypeSet) :
    TagSound Done (g.addTypeSets ss).2 ∧
      List.Forall₂ ((g.addTypeSets ss).2.HasTypeSet Done) (g.addTypeSets ss).1 ss := by
  induction ss generalizing g with
  | nil => exact ⟨h, .nil⟩
  | cons s ss ih =>
    obtain ⟨hsound, hset⟩ := h.addTypeSet s
    obtain ⟨hsound', hsets⟩ := ih hsound
    exact ⟨hsound', .cons ((addTypeSets_keeps (g.addTypeSet s).2 ss).hasTypeSet hset) hsets⟩

end TagSound

/-! ## Signatures -/

/-- A graph to write to, in which every tag and every signature that has a node is
described by it. -/
structure Sound (Done : Node → Prop) (g : CoverageGraph) : Prop extends TagSound Done g where
  /-- The signatures that have nodes are described. -/
  signatures : ∀ entry ∈ g.signatureNodes, g.HasSignature Done entry.2 entry.1

/-- Whatever leaves the nodes of signatures alone leaves the signatures
described. -/
theorem Sound.keeps (h : Sound Done g) (hk : Keeps Done g g') (hg : TagSound Done g')
    (hsignatures : g'.signatureNodes = g.signatureNodes) : Sound Done g' :=
  ⟨hg, fun entry hentry => hk.hasSignature (h.signatures entry (hsignatures ▸ hentry))⟩

mutual

/-- Writing a tag leaves the nodes of signatures alone. -/
theorem signatureNodes_addTag (g : CoverageGraph) :
    ∀ t : Tag, (g.addTag t).2.signatureNodes = g.signatureNodes
  | .mk n ts => by
    cases h : g.tagNode? (.mk n ts) with
    | some node => rw [addTag_of_some h]
    | none =>
      rw [addTag_of_none h, (noted_stateLabel _ _ _).2]
      unfold stateArguments
      split
      · rfl
      · exact (noted_addList _ _).2.trans (signatureNodes_addTags (g.openTag n ts) ts)

/-- Writing several tags leaves the nodes of signatures alone. -/
theorem signatureNodes_addTags (g : CoverageGraph) :
    ∀ ts : List Tag, (g.addTags ts).2.signatureNodes = g.signatureNodes
  | [] => rfl
  | t :: ts => (signatureNodes_addTags (g.addTag t).2 ts).trans (signatureNodes_addTag g t)

end

/-- Stating members leaves the nodes of signatures alone. -/
theorem signatureNodes_addMembers (g : CoverageGraph) (node : Node) (ts : List Tag) :
    (g.addMembers node ts).signatureNodes = g.signatureNodes := by
  induction ts generalizing g with
  | nil => rfl
  | cons t ts ih => exact (ih _).trans (signatureNodes_addTag g t)

/-- Writing type sets leaves the nodes of signatures alone. -/
theorem signatureNodes_addTypeSets (g : CoverageGraph) (ss : List TypeSet) :
    (g.addTypeSets ss).2.signatureNodes = g.signatureNodes := by
  induction ss generalizing g with
  | nil => rfl
  | cons s ss ih => exact (ih (g.addTypeSet s).2).trans (signatureNodes_addMembers _ _ _)

/-- The graph in which a signature has a node, but no parameters yet. -/
def openSignature (g : CoverageGraph) (s : Signature) : CoverageGraph :=
  { g.fresh.2 with signatureNodes := (s, g.fresh.1) :: g.signatureNodes }.state g.fresh.1 .type
    .signatureClass

/-- State the parameters of a signature. -/
def stateParameters (g : CoverageGraph) (node : Node) (ss : List TypeSet) : CoverageGraph :=
  (g.addTypeSets ss).2.stateList node .parameters (g.addTypeSets ss).1

/-- A signature that was written before keeps its node. -/
theorem addSignature_of_some {s : Signature} {node : Node} (h : g.signatureNode? s = some node) :
    g.addSignature s = (node, g) := by
  rw [addSignature, h]

/-- Writing another signature gives it a node, writes its parameters and labels
it. -/
theorem addSignature_of_none {s : Signature} (h : g.signatureNode? s = none) :
    g.addSignature s = (g.fresh.1,
      ((g.openSignature s).stateParameters g.fresh.1 s.parameters).stateLabel g.fresh.1
        (s.text {})) := by
  rw [addSignature, h]
  rfl

/-- Giving a signature a node says nothing about known nodes. -/
theorem openSignature_keeps (g : CoverageGraph) (s : Signature) :
    Keeps (apart Done g.fresh.1) g.fresh.2 (g.openSignature s) := by
  set noted : CoverageGraph :=
    { g.fresh.2 with signatureNodes := (s, g.fresh.1) :: g.signatureNodes }
  have hnote : Keeps (apart Done g.fresh.1) g.fresh.2 noted := .of_eq rfl rfl
  exact hnote.trans (state_keeps not_settled_apart g.known_fresh.ne_fresh)

/-- The node of a signature is known. -/
theorem known_openSignature (g : CoverageGraph) (s : Signature) :
    (g.openSignature s).Known g.fresh.1 := g.known_fresh

/-- Stating the parameters of a node that is being written says nothing about the
settled nodes. -/
theorem stateParameters_keeps (hbusy : ¬Done node) (hnode : g.Known node) (ss : List TypeSet) :
    Keeps Done g (g.stateParameters node ss) := by
  have hsets : Keeps Done g (g.addTypeSets ss).2 := addTypeSets_keeps g ss
  exact hsets.trans (stateList_keeps (hsets.known hnode) hbusy)

/-- Writing a signature says nothing about known nodes. -/
theorem addSignature_keeps (g : CoverageGraph) (s : Signature) :
    Keeps Done g (g.addSignature s).2 := by
  cases h : g.signatureNode? s with
  | some node =>
    rw [addSignature_of_some h]
    exact .refl g
  | none =>
    rw [addSignature_of_none h]
    have hopen : Keeps (apart Done g.fresh.1) g.fresh.2 (g.openSignature s) :=
      g.openSignature_keeps s
    have hparameters := hopen.trans
      (stateParameters_keeps not_apart_self (g.known_openSignature s) s.parameters)
    exact (hparameters.trans (stateLabel_keeps _ not_settled_apart
      (hparameters.known g.known_fresh).ne_fresh)).of_fresh

/-- A node that is being written gets parameters that describe type sets. -/
theorem TagSound.stateParameters (h : TagSound Done g) (hbusy : ¬Done node)
    (hnode : g.Known node) (hnone : g.graph.HasNone node .parameters) (ss : List TypeSet) :
    TagSound Done (g.stateParameters node ss) ∧ ∃ list items,
      (g.stateParameters node ss).graph.HasOnly node .parameters list ∧
      (g.stateParameters node ss).graph.IsList ((g.stateParameters node ss).Settled Done) list
        items ∧
      List.Forall₂ ((g.stateParameters node ss).HasTypeSet Done) items ss := by
  obtain ⟨hsound, hsets⟩ := h.addTypeSets ss
  have hkeeps : Keeps (fun _ => True) g (g.addTypeSets ss).2 := addTypeSets_keeps g ss
  obtain ⟨list, hlist, hcells⟩ := exists_isList_stateList (hkeeps.known hnode) hsound.toReady hbusy
    (hkeeps.agrees.hasNone ⟨trivial, hnode⟩ hnone) (g.addTypeSets ss).1
  have hclose : Keeps Done (g.addTypeSets ss).2 (g.stateParameters node ss) :=
    stateList_keeps (hkeeps.known hnode) hbusy
  exact ⟨hsound.keeps hclose (noted_addList _ _).1, list, _, hlist, hcells,
    hsets.imp fun _ _ hset => hclose.hasTypeSet hset⟩

/-- A labelled node with the parameters of a signature describes the signature. -/
theorem hasSignature_stateLabel {s : Signature} {list : Node} {items : List Node} (text : String)
    (hdone : Done node) (hnode : g.Known node) (hlist : g.graph.HasOnly node .parameters list)
    (hcells : g.graph.IsList (g.Settled (apart Done node)) list items)
    (hsets : List.Forall₂ (g.HasTypeSet (apart Done node)) items s.parameters) :
    (g.stateLabel node text).HasSignature Done node s := by
  have hlabel : Keeps (apart Done node) g (g.stateLabel node text) :=
    stateLabel_keeps text not_settled_apart hnode.ne_fresh
  exact ⟨list, items, ⟨hdone, hlabel.known hnode⟩,
    fun o => (mem_stateLabel (by decide)).trans (hlist o),
    hlabel.agrees.isList (fun _ => hlabel.settled_of_apart) hcells,
    hsets.imp fun _ _ hset => hlabel.agrees.isTypeSet (fun _ => hlabel.settled_of_apart) hset⟩

/-- The node of a signature that was written describes it. -/
theorem Sound.addSignature (h : Sound Done g) (s : Signature) :
    Sound Done (g.addSignature s).2 ∧
      (g.addSignature s).2.HasSignature Done (g.addSignature s).1 s := by
  have hkeeps : Keeps Done g (g.addSignature s).2 := addSignature_keeps g s
  cases hfind : g.signatureNode? s with
  | some node =>
    rw [addSignature_of_some hfind]
    exact ⟨h, h.signatures _ (mem_of_find?_key hfind)⟩
  | none =>
    rw [addSignature_of_none hfind] at hkeeps ⊢
    have hnone : (g.openSignature s).graph.HasNone g.fresh.1 .parameters :=
      (h.fresh_unstated .parameters).insert_ne (by decide)
    obtain ⟨hsound, list, items, hlist, hcells, hsets⟩ :=
      (h.toTagSound.fresh.keeps (g.openSignature_keeps s) rfl).stateParameters
        not_apart_self (g.known_openSignature s) hnone s.parameters
    have hparameters : Keeps (apart Done g.fresh.1) _ _ :=
      stateParameters_keeps not_apart_self (g.known_openSignature s) s.parameters
    have hnode := hparameters.known (g.known_openSignature s)
    have hlabel : Keeps (apart Done g.fresh.1) _ _ :=
      stateLabel_keeps (s.text {}) not_settled_apart hnode.ne_fresh
    have hsignature := hasSignature_stateLabel (s.text {}) h.fresh_done hnode hlist hcells hsets
    refine ⟨⟨hsound.of_apart hlabel (h.toReady.keeps hkeeps) (noted_stateLabel _ _ _).1,
      fun entry hentry => ?_⟩, hsignature⟩
    have hnodes : ((g.openSignature s).stateParameters g.fresh.1 s.parameters).signatureNodes =
        (s, g.fresh.1) :: g.signatureNodes :=
      (noted_addList _ _).2.trans (signatureNodes_addTypeSets _ _)
    rw [(noted_stateLabel _ _ _).2, hnodes] at hentry
    rcases List.mem_cons.1 hentry with rfl | hold
    · exact hsignature
    · exact hkeeps.hasSignature (h.signatures entry hold)

/-! ## Checks -/

/-- Writing that keeps what is said about settled nodes, and after which every tag
and every signature that has a node is described if that was so before. -/
structure Advances (Done : Node → Prop) (g g' : CoverageGraph) : Prop where
  /-- What is said about settled nodes is kept. -/
  keeps : Keeps Done g g'
  /-- The tags and signatures stay described. -/
  sound : Sound Done g → Sound Done g'

namespace Advances

/-- Writing nothing. -/
theorem refl (g : CoverageGraph) : Advances Done g g := ⟨.refl g, id⟩

/-- Writing twice. -/
theorem trans (h : Advances Done g g') (h' : Advances Done g' g'') : Advances Done g g'' :=
  ⟨h.keeps.trans h'.keeps, h'.sound ∘ h.sound⟩

/-- Writing about a node that was just made. -/
theorem of_fresh (h : Advances (apart Done g.fresh.1) g.fresh.2 g') : Advances Done g g' where
  keeps := h.keeps.of_fresh
  sound hg := by
    have hfresh : Sound (apart Done g.fresh.1) g.fresh.2 :=
      ⟨hg.toTagSound.fresh, fun entry hentry =>
        (Keeps.refl g).agrees.isSignature (fun _ => settled_fresh) (hg.signatures entry hentry)⟩
    have hsound := h.sound hfresh
    exact ⟨hsound.toTagSound.of_apart (.refl g') (hg.toReady.keeps h.keeps.of_fresh) rfl,
      fun entry hentry => (Keeps.refl g').agrees.isSignature
        (fun _ => (Keeps.refl g').settled_of_apart) (hsound.signatures entry hentry)⟩

end Advances

/-- Stating a property of a node that is made, but not settled. -/
theorem state_advances {p o : Node} (hsettled : ¬g.Settled Done node)
    (hmade : ∀ k, g.next ≤ k → node ≠ .blank (.fresh k)) : Advances Done g (g.state node p o) where
  keeps := state_keeps hsettled hmade
  sound hg := hg.keeps (state_keeps hsettled hmade)
    (hg.toTagSound.keeps (state_keeps hsettled hmade) rfl) rfl

/-- Labelling such a node. -/
theorem stateLabel_advances (text : String) (hsettled : ¬g.Settled Done node)
    (hmade : ∀ k, g.next ≤ k → node ≠ .blank (.fresh k)) :
    Advances Done g (g.stateLabel node text) := by
  unfold stateLabel
  split
  · exact state_advances hsettled hmade
  · exact .refl g

/-- Writing a signature. -/
theorem addSignature_advances (g : CoverageGraph) (s : Signature) :
    Advances Done g (g.addSignature s).2 :=
  ⟨addSignature_keeps g s, fun h => (h.addSignature s).1⟩

section Check

variable {root : Node} (hsettled : ∀ g' : CoverageGraph, ¬g'.Settled Done root)

include hsettled

/-- Stating signatures as values of a property of a node that is never settled. -/
theorem addSignatures_advances {p : Node} (hmade : ∀ k, g.next ≤ k → root ≠ .blank (.fresh k))
    (ss : List Signature) : Advances Done g (g.addSignatures root p ss) := by
  induction ss generalizing g with
  | nil => exact .refl g
  | cons s ss ih =>
    have hs : Advances Done g (g.addSignature s).2 := addSignature_advances g s
    have hmade' := hs.keeps.ne_fresh hmade
    exact (hs.trans (state_advances (hsettled _) hmade')).trans (ih hmade')

/-- State the parts of a check about its node. -/
def stateCheck (g : CoverageGraph) (root : Node) (interface : Signature)
    (implementations leaves : List Signature) : CoverageGraph :=
  let g := (g.state root .type .checkClass).addSignature interface
  let g := g.2.state root .interface g.1
  let g := (g.addSignatures root .implementation implementations).addSignatures root .leaf leaves
  g.state root .complete (.literal (.truth leaves.isEmpty))

/-- Stating the parts of a check about a node that is never settled. -/
theorem stateCheck_advances (hmade : ∀ k, g.next ≤ k → root ≠ .blank (.fresh k))
    (interface : Signature) (implementations leaves : List Signature) :
    Advances Done g (g.stateCheck root interface implementations leaves) := by
  have htype : Advances Done g (g.state root .type .checkClass) :=
    state_advances (hsettled g) hmade
  have hsignature := htype.trans (addSignature_advances _ interface)
  have hinterface := hsignature.trans (state_advances (p := .interface)
    (o := ((g.state root .type .checkClass).addSignature interface).1) (hsettled _)
    (hsignature.keeps.ne_fresh hmade))
  have himplementations := hinterface.trans (addSignatures_advances (p := .implementation) hsettled
    (hinterface.keeps.ne_fresh hmade) implementations)
  have hleaves := himplementations.trans (addSignatures_advances (p := .leaf) hsettled
    (himplementations.keeps.ne_fresh hmade) leaves)
  exact hleaves.trans (state_advances (hsettled _) (hleaves.keeps.ne_fresh hmade))

end Check

/-- The resource of a named check is neither the empty list nor a blank node. -/
theorem not_known_check (g : CoverageGraph) (n : Name) : ¬g.Known (Node.check n) := by
  rintro (heq | ⟨k, -, heq⟩)
  · have htext := congrArg (fun node => node.nameText.toList.take 5) heq
    simp [Node.nameText, Node.check, Node.nil, Namespaces.ex, Namespaces.rdf] at htext
  · exact Node.noConfusion heq

/-- Writing a check. -/
theorem addCheck_advances (g : CoverageGraph) (interface : Signature)
    (implementations leaves : List Signature) (name : Option Name) :
    Advances Done g (g.addCheck interface implementations leaves name).2 := by
  cases name with
  | none =>
    exact (stateCheck_advances (fun _ => not_settled_apart) g.known_fresh.ne_fresh interface
      implementations leaves).of_fresh
  | some n =>
    have hsettled : ∀ g' : CoverageGraph, ¬g'.Settled Done (Node.check n) :=
      fun g' h => g'.not_known_check n h.2
    have hmade : ∀ k, Node.check n ≠ .blank (.fresh k) := fun _ => Node.noConfusion
    exact (stateCheck_advances hsettled (fun k _ => hmade k) interface implementations leaves).trans
      (stateLabel_advances n.text (hsettled _) fun k _ => hmade k)

/-! ## Whole runs -/

/-- A call that writes to a coverage graph. -/
inductive Call where
  /-- Write a tag. -/
  | addTag (t : Tag)
  /-- Write a type set. -/
  | addTypeSet (s : TypeSet)
  /-- Write a list of nodes. -/
  | addList (items : List Node)
  /-- Write a signature. -/
  | addSignature (s : Signature)
  /-- Write the outcome of a check. -/
  | addCheck (interface : Signature) (implementations leaves : List Signature)
    (name : Option Name)

/-- The node that a call returns, and the graph behind the call. -/
def run (g : CoverageGraph) : Call → Node × CoverageGraph
  | .addTag t => g.addTag t
  | .addTypeSet s => g.addTypeSet s
  | .addList items => g.addList items
  | .addSignature s => g.addSignature s
  | .addCheck interface implementations leaves name =>
    g.addCheck interface implementations leaves name

/-- The graph behind several calls, in order. -/
def runAll (g : CoverageGraph) (calls : List Call) : CoverageGraph :=
  calls.foldl (fun g call => (g.run call).2) g

/-- A graph in which nothing is being written, and in which every tag and every
signature that has a node is described by it. -/
abbrev Complete (g : CoverageGraph) : Prop := Sound (fun _ => True) g

/-- Nothing is left to describe before the first call. -/
theorem complete_start (labels : Bool) : Complete { withLabels := labels } where
  nil_done := trivial
  ahead_done _ _ := trivial
  nil_unstated _ _ := List.not_mem_nil
  ahead_unstated _ _ _ _ := List.not_mem_nil
  tags _ hentry := absurd hentry List.not_mem_nil
  signatures _ hentry := absurd hentry List.not_mem_nil

/-- Every call keeps what is said about the nodes made so far, and leaves the tags
and signatures described. -/
theorem run_advances (g : CoverageGraph) : ∀ call : Call, Advances (fun _ => True) g (g.run call).2
  | .addTag t =>
    ⟨addTag_keeps g _ t, fun h => h.keeps (addTag_keeps g _ t) (h.toTagSound.addTag t).1
      (signatureNodes_addTag g t)⟩
  | .addTypeSet s =>
    ⟨addTypeSet_keeps g s, fun h => h.keeps (addTypeSet_keeps g s) (h.toTagSound.addTypeSet s).1
      (signatureNodes_addMembers g.openTypeSet g.fresh.1 s.toList)⟩
  | .addList items =>
    ⟨addList_keeps g items, fun h => h.keeps (addList_keeps g items)
      (h.toTagSound.keeps (addList_keeps g items) (noted_addList g items).1)
      (noted_addList g items).2⟩
  | .addSignature s => addSignature_advances g s
  | .addCheck interface implementations leaves name =>
    addCheck_advances g interface implementations leaves name

/-- So do several calls. -/
theorem runAll_advances (g : CoverageGraph) (calls : List Call) :
    Advances (fun _ => True) g (g.runAll calls) := by
  induction calls generalizing g with
  | nil => exact .refl g
  | cons call calls ih => exact (g.run_advances call).trans (ih (g.run call).2)

/-- A tag is read from a node that describes it, after any further calls. -/
theorem HasTag.read {t : Tag} (h : g.HasTag (fun _ => True) node t) (later : List Call) :
    (g.runAll later).graph.tag (some node) = .ok t :=
  ((g.runAll_advances later).keeps.hasTag h).tag fun _ hs => hs.2.isFalsy

/-- A type set is read from a node that describes it, after any further calls. -/
theorem HasTypeSet.read {s : TypeSet} (h : g.HasTypeSet (fun _ => True) node s)
    (later : List Call) : (g.runAll later).graph.typeSet (some node) = .ok s :=
  ((g.runAll_advances later).keeps.hasTypeSet h).typeSet fun _ hs => hs.2.isFalsy

/-- A signature is read from a node that describes it, after any further calls. -/
theorem HasSignature.read {s : Signature} (h : g.HasSignature (fun _ => True) node s)
    (later : List Call) : (g.runAll later).graph.signature (some node) = .ok s :=
  ((g.runAll_advances later).keeps.hasSignature h).signature fun _ hs => hs.2.isFalsy

/-- Whatever calls wrote to a graph, with or without labels, the node that is
returned for a tag, a type set or a signature is read back as just that, at once
and after any further calls. The same holds for the nodes that tags and signatures
were given on the way, within other tags, sets, signatures and checks. -/
theorem reads_back (labels : Bool) (earlier later : List Call) :
    let g := runAll { withLabels := labels } earlier
    (∀ t, ((g.addTag t).2.runAll later).graph.tag (some (g.addTag t).1) = .ok t) ∧
    (∀ s, ((g.addTypeSet s).2.runAll later).graph.typeSet (some (g.addTypeSet s).1) = .ok s) ∧
    (∀ s, ((g.addSignature s).2.runAll later).graph.signature (some (g.addSignature s).1) = .ok s) ∧
    (∀ entry ∈ g.tagNodes, (g.runAll later).graph.tag (some entry.2) = .ok entry.1) ∧
    ∀ entry ∈ g.signatureNodes, (g.runAll later).graph.signature (some entry.2) = .ok entry.1 := by
  intro g
  have hg : Complete g := (runAll_advances _ earlier).sound (complete_start labels)
  refine ⟨fun t => ?_, fun s => ?_, fun s => ?_, fun entry hentry => ?_, fun entry hentry => ?_⟩
  · exact HasTag.read (hg.toTagSound.addTag t).2 later
  · exact HasTypeSet.read (hg.toTagSound.addTypeSet s).2 later
  · exact HasSignature.read (hg.addSignature s).2 later
  · exact HasTag.read (hg.tags entry hentry trivial) later
  · exact HasSignature.read (hg.signatures entry hentry) later

end CoverageGraph

end DispatchCoverage

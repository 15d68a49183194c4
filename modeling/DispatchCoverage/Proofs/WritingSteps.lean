import Mathlib.Logic.Relation
import DispatchCoverage.Proofs.CheckStatements
import DispatchCoverage.Signature.Parts

/-!
# Writing step by step

All that is written to a coverage graph is written in steps of four kinds: a
blank node is made; something is stated that neither names a node nor makes it a
tag or a signature; a tag that has no node gets one, with its class and its name;
a signature that has no node gets one, with its class. Along with the steps goes
which tags and which signatures get nodes: those that occur in what is written.
What every step keeps is kept by every call. Some properties hold only while no
list is half written. Every call writes in pieces, which are steps or whole lists,
and such properties are kept from piece to piece.
-/

namespace DispatchCoverage

namespace CoverageGraph

variable {T : Tag → Prop} {S : Signature → Prop} {g g' : CoverageGraph} {node p o : Node}

/-- A statement that neither names a node nor makes it a tag or a signature. -/
structure Neutral (p o : Node) : Prop where
  /-- No name is stated. -/
  notName : p ≠ .name
  /-- No tag is made. -/
  notTag : ¬(p = .type ∧ o = .tagClass)
  /-- No signature is made. -/
  notSignature : ¬(p = .type ∧ o = .signatureClass)

/-- Neither a class nor a name is stated. -/
theorem Neutral.of_ne (hname : p ≠ .name) (htype : p ≠ .type) : Neutral p o :=
  ⟨hname, fun h => htype h.1, fun h => htype h.1⟩

/-- One step of writing, which gives nodes to tags and signatures of some kind
only. -/
inductive Step (T : Tag → Prop) (S : Signature → Prop) : CoverageGraph → CoverageGraph → Prop
  /-- A blank node is made. -/
  | make (g : CoverageGraph) : Step T S g g.fresh.2
  /-- Something else is stated about a node. -/
  | state (g : CoverageGraph) (node : Node) {p o : Node} (h : Neutral p o) :
    Step T S g (g.state node p o)
  /-- A tag gets a node. -/
  | tag {g : CoverageGraph} {n : Name} {ts : List Tag} (h : g.tagNode? (.mk n ts) = none)
    (ht : T (.mk n ts)) : Step T S g (g.openTag n ts)
  /-- A signature gets a node. -/
  | signature {g : CoverageGraph} {s : Signature} (h : g.signatureNode? s = none) (hs : S s) :
    Step T S g (g.openSignature s)

/-- Several steps of writing, one after the other. -/
abbrev Steps (T : Tag → Prop) (S : Signature → Prop) : CoverageGraph → CoverageGraph → Prop :=
  Relation.ReflTransGen (Step T S)

/-- Writing a list takes steps. -/
theorem addList_steps (g : CoverageGraph) (items : List Node) : Steps T S g (g.addList items).2 := by
  induction items generalizing g with
  | nil => exact .refl
  | cons item items ih =>
    have hfirst : Steps T S g (g.fresh.2.state g.fresh.1 .first item) :=
      .tail (.single (.make g)) (.state _ _ (.of_ne (by decide) (by decide)))
    exact .tail (hfirst.trans (ih _)) (.state _ _ (.of_ne (by decide) (by decide)))

/-! ## Pieces of writing -/

/-- A statement that has its place between lists: it changes none of them, and it
gives parameters to signatures only. -/
structure Aside (g : CoverageGraph) (node p o : Node) : Prop extends Neutral p o where
  /-- No first item is stated. -/
  notFirst : p ≠ .first
  /-- No rest is stated. -/
  notRest : p ≠ .rest
  /-- Parameters are stated for signatures. -/
  parameters : p = .parameters → node ∈ g.signatureNodes.map Prod.snd

namespace Aside

/-- A property other than those of names, classes, lists and parameters. -/
theorem of_not_mem (h : p ∉ [Node.name, .type, .first, .rest, .parameters]) :
    Aside g node p o := by
  simp only [List.mem_cons, List.not_mem_nil, or_false, not_or] at h
  exact ⟨.of_ne h.1 h.2.1, h.2.2.1, h.2.2.2.1, fun hp => absurd hp h.2.2.2.2⟩

/-- A class other than those of tags and signatures. -/
theorem of_class (h : o ∉ [Node.tagClass, .signatureClass]) : Aside g node .type o := by
  simp only [List.mem_cons, List.not_mem_nil, or_false, not_or] at h
  exact ⟨⟨by decide, fun ht => h.1 ht.2, fun hs => h.2 hs.2⟩, by decide, by decide,
    fun hp => absurd hp (by decide)⟩

/-- Parameters of a signature. -/
theorem of_mem (h : node ∈ g.signatureNodes.map Prod.snd) : Aside g node .parameters o :=
  ⟨.of_ne (by decide) (by decide), by decide, by decide, fun _ => h⟩

end Aside

/-- One piece of writing: a step, or a whole list, so that no list is half written
between two pieces. -/
inductive Piece (T : Tag → Prop) (S : Signature → Prop) : CoverageGraph → CoverageGraph → Prop
  /-- A blank node is made. -/
  | make (g : CoverageGraph) : Piece T S g g.fresh.2
  /-- Something else is stated about a node. -/
  | state (g : CoverageGraph) (node : Node) {p o : Node} (h : Aside g node p o) :
    Piece T S g (g.state node p o)
  /-- A list is written. -/
  | list (g : CoverageGraph) (items : List Node) : Piece T S g (g.addList items).2
  /-- A tag gets a node. -/
  | tag {g : CoverageGraph} {n : Name} {ts : List Tag} (h : g.tagNode? (.mk n ts) = none)
    (ht : T (.mk n ts)) : Piece T S g (g.openTag n ts)
  /-- A signature gets a node. -/
  | signature {g : CoverageGraph} {s : Signature} (h : g.signatureNode? s = none) (hs : S s) :
    Piece T S g (g.openSignature s)

/-- Several pieces of writing, one after the other. -/
abbrev Pieces (T : Tag → Prop) (S : Signature → Prop) : CoverageGraph → CoverageGraph → Prop :=
  Relation.ReflTransGen (Piece T S)

/-- A piece of writing takes steps. -/
theorem Piece.steps (h : Piece T S g g') : Steps T S g g' := by
  cases h with
  | make => exact .single (.make g)
  | state node h => exact .single (.state g node h.toNeutral)
  | list items => exact addList_steps g items
  | tag h ht => exact .single (.tag h ht)
  | signature h hs => exact .single (.signature h hs)

/-- So do several pieces. -/
theorem Pieces.steps (h : Pieces T S g g') : Steps T S g g' := by
  induction h with
  | refl => exact .refl
  | tail _ hpiece ih => exact ih.trans hpiece.steps

/-! ## Writers write in pieces -/

/-- Labelling a node. -/
theorem stateLabel_pieces (g : CoverageGraph) (node : Node) (text : String) :
    Pieces T S g (g.stateLabel node text) := by
  unfold stateLabel
  split
  · exact .single (.state g node (.of_not_mem (by decide)))
  · exact .refl

/-- Stating the arguments of a node, if writing them is done in pieces. -/
theorem stateArguments_pieces {ts : List Tag} (hts : Pieces T S g (g.addTags ts).2) (node : Node) :
    Pieces T S g (g.stateArguments node ts) := by
  unfold stateArguments
  split
  · exact .refl
  · exact (hts.tail (.list _ _)).tail (.state _ _ (.of_not_mem (by decide)))

mutual

/-- Writing a tag gives nodes to tags that occur in it. -/
theorem addTag_pieces (g : CoverageGraph) :
    ∀ t : Tag, (∀ u ∈ t.parts, T u) → Pieces T S g (g.addTag t).2
  | .mk n ts, hT => by
    cases h : g.tagNode? (.mk n ts) with
    | some node =>
      rw [addTag_of_some h]
    | none =>
      rw [addTag_of_none h]
      have hopen : Pieces T S g (g.openTag n ts) := .single (.tag h (hT _ (Tag.mem_parts_self _)))
      have hts : ∀ t ∈ ts, ∀ u ∈ t.parts, T u :=
        fun t ht u hu => hT u (Tag.mem_parts_mk.2 (.inr ⟨t, ht, hu⟩))
      exact (hopen.trans (stateArguments_pieces (addTags_pieces _ ts hts) _)).trans
        (stateLabel_pieces _ _ _)

/-- Writing several tags gives nodes to tags that occur in them. -/
theorem addTags_pieces (g : CoverageGraph) :
    ∀ ts : List Tag, (∀ t ∈ ts, ∀ u ∈ t.parts, T u) → Pieces T S g (g.addTags ts).2
  | [], _ => .refl
  | t :: ts, hT => by
    obtain ⟨ht, hts⟩ := List.forall_mem_cons.1 hT
    exact (addTag_pieces g t ht).trans (addTags_pieces (g.addTag t).2 ts hts)

end

/-- Stating members gives nodes to tags that occur in them. -/
theorem addMembers_pieces (g : CoverageGraph) (node : Node) (ts : List Tag)
    (hT : ∀ t ∈ ts, ∀ u ∈ t.parts, T u) : Pieces T S g (g.addMembers node ts) := by
  induction ts generalizing g with
  | nil => exact .refl
  | cons t ts ih =>
    obtain ⟨ht, hts⟩ := List.forall_mem_cons.1 hT
    have hmember : Piece T S (g.addTag t).2 ((g.addTag t).2.state node .member (g.addTag t).1) :=
      .state _ _ (.of_not_mem (by decide))
    exact ((addTag_pieces g t ht).tail hmember).trans (ih _ hts)

/-- Writing a type set gives nodes to tags that occur in it. -/
theorem addTypeSet_pieces (g : CoverageGraph) (s : TypeSet) (hT : ∀ u ∈ TypeSet.parts s, T u) :
    Pieces T S g (g.addTypeSet s).2 := by
  have hopen : Pieces T S g g.openTypeSet :=
    .tail (.single (.make g)) (.state _ _ (.of_class (by decide)))
  exact hopen.trans (addMembers_pieces _ _ _ fun t ht u hu => hT u (TypeSet.mem_parts.2 ⟨t, ht, hu⟩))

/-- Writing several type sets gives nodes to tags that occur in them. -/
theorem addTypeSets_pieces (g : CoverageGraph) (ss : List TypeSet)
    (hT : ∀ s ∈ ss, ∀ u ∈ TypeSet.parts s, T u) : Pieces T S g (g.addTypeSets ss).2 := by
  induction ss generalizing g with
  | nil => exact .refl
  | cons s ss ih =>
    obtain ⟨hs, hss⟩ := List.forall_mem_cons.1 hT
    exact (addTypeSet_pieces g s hs).trans (ih (g.addTypeSet s).2 hss)

/-- Writing a signature gives a node to it and to tags that occur in it. -/
theorem addSignature_pieces (g : CoverageGraph) (s : Signature) (hT : ∀ u ∈ s.parts, T u)
    (hS : S s) : Pieces T S g (g.addSignature s).2 := by
  cases h : g.signatureNode? s with
  | some node => rw [addSignature_of_some h]
  | none =>
    rw [addSignature_of_none h]
    set sets := (g.openSignature s).addTypeSets s.parameters
    have hopen : Pieces T S g (g.openSignature s) := .single (.signature h hS)
    have hsets : Pieces T S (g.openSignature s) sets.2 :=
      addTypeSets_pieces _ _ fun p hp u hu => hT u (Signature.mem_parts.2 ⟨p, hp, hu⟩)
    have hnodes : (sets.2.addList sets.1).2.signatureNodes = (s, g.fresh.1) :: g.signatureNodes :=
      (noted_addList _ _).2.trans (signatureNodes_addTypeSets _ _)
    have hlist : Pieces T S sets.2 (sets.2.stateList g.fresh.1 .parameters sets.1) :=
      .tail (.single (.list _ _)) (.state _ _ (.of_mem (by rw [hnodes]; exact List.mem_cons_self)))
    exact ((hopen.trans hsets).trans hlist).trans (stateLabel_pieces _ _ _)

/-- Stating signatures as values of a property gives nodes to them and to tags
that occur in them. -/
theorem addSignatures_pieces (g : CoverageGraph) (node : Node)
    (hp : p ∉ [Node.name, .type, .first, .rest, .parameters]) (ss : List Signature)
    (hss : ∀ s ∈ ss, (∀ u ∈ s.parts, T u) ∧ S s) : Pieces T S g (g.addSignatures node p ss) := by
  induction ss generalizing g with
  | nil => exact .refl
  | cons s ss ih =>
    obtain ⟨⟨hT, hS⟩, hss⟩ := List.forall_mem_cons.1 hss
    exact ((addSignature_pieces g s hT hS).tail (.state _ _ (.of_not_mem hp))).trans (ih _ hss)

/-- The signatures that a call is given. -/
def Call.signatures : Call → List Signature
  | .addSignature s => [s]
  | .addCheck interface implementations leaves _ => interface :: (implementations ++ leaves)
  | _ => []

/-- The tags that occur in what a call is given. -/
def Call.tags : Call → List Tag
  | .addTag t => t.parts
  | .addTypeSet s => TypeSet.parts s
  | call => call.signatures.flatMap Signature.parts

/-- Stating the parts of a check gives nodes to its signatures and to tags that
occur in them. -/
theorem stateCheck_pieces (g : CoverageGraph) (root : Node) (interface : Signature)
    (implementations leaves : List Signature)
    (hs : ∀ s ∈ interface :: (implementations ++ leaves), (∀ u ∈ s.parts, T u) ∧ S s) :
    Pieces T S g (g.stateCheck root interface implementations leaves) := by
  obtain ⟨⟨hT, hS⟩, hs⟩ := List.forall_mem_cons.1 hs
  obtain ⟨himplementations, hleaves⟩ := List.forall_mem_append.1 hs
  set written := (g.state root .type .checkClass).addSignature interface
  set interfaced := written.2.state root .interface written.1
  set implemented := interfaced.addSignatures root .implementation implementations
  have hwritten : Pieces T S g written.2 :=
    .trans (.single (.state g root (.of_class (by decide)))) (addSignature_pieces _ interface hT hS)
  have hinterfaced : Piece T S written.2 interfaced :=
    .state written.2 root (.of_not_mem (by decide))
  have himplemented : Pieces T S interfaced implemented :=
    addSignatures_pieces interfaced root (by decide) _ himplementations
  have hreported : Pieces T S implemented (implemented.addSignatures root .leaf leaves) :=
    addSignatures_pieces implemented root (by decide) _ hleaves
  exact (((hwritten.tail hinterfaced).trans himplemented).trans hreported).tail
    (.state _ root (.of_not_mem (by decide)))

/-- A call gives nodes to signatures that it is given, and to tags that occur in
what it is given. -/
theorem run_pieces (g : CoverageGraph) (call : Call) :
    Pieces (· ∈ call.tags) (· ∈ call.signatures) g (g.run call).2 := by
  cases call with
  | addTag t => exact addTag_pieces g t fun _ hu => hu
  | addTypeSet s => exact addTypeSet_pieces g s fun _ hu => hu
  | addList items => exact .single (.list g items)
  | addSignature s =>
    exact addSignature_pieces g s
      (fun u hu => List.mem_flatMap.2 ⟨s, List.mem_singleton_self s, hu⟩) (List.mem_singleton_self s)
  | addCheck interface implementations leaves name =>
    have hs : ∀ s ∈ interface :: (implementations ++ leaves),
        (∀ u ∈ s.parts, u ∈ (Call.addCheck interface implementations leaves name).tags) ∧
          s ∈ (Call.addCheck interface implementations leaves name).signatures :=
      fun s hs => ⟨fun u hu => List.mem_flatMap.2 ⟨s, hs, hu⟩, hs⟩
    cases name with
    | none =>
      exact .trans (.single (.make g))
        (stateCheck_pieces g.fresh.2 g.fresh.1 interface implementations leaves hs)
    | some n =>
      exact (stateCheck_pieces g (.check n) interface implementations leaves hs).trans
        (stateLabel_pieces _ _ _)

/-- A call takes steps. -/
theorem run_steps (g : CoverageGraph) (call : Call) :
    Steps (· ∈ call.tags) (· ∈ call.signatures) g (g.run call).2 :=
  (run_pieces g call).steps

end CoverageGraph

end DispatchCoverage

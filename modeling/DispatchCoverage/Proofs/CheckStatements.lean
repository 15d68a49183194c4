import DispatchCoverage.Proofs.ReadBack

/-!
# Statements about a check

Whatever a coverage graph is given, the nodes that checks can have only get the
statements meant for them: signatures, sets and tags are written about blank
nodes made on the way. So writing the outcome of a check says about its node just
what the outcome states, where signatures stand for the nodes that they were
given, and it says nothing about the nodes of other checks.
-/

namespace DispatchCoverage

/-- The outcome of a check, as it is written to a graph. -/
structure CheckRecord where
  /-- The interface that was checked. -/
  interface : Signature
  /-- The implementations considered. -/
  implementations : List Signature
  /-- The leaves found. -/
  leaves : List Signature
  /-- The name of the check, if it has one. -/
  name : Option Name

namespace CoverageGraph

variable {g g' g'' : CoverageGraph} {node root s p q o : Node} {r : CheckRecord}

/-! ## Statements that concern no check -/

/-- A graph that is written further about blank nodes, without making any node a
check. -/
structure Elaborates (g g' : CoverageGraph) : Prop where
  /-- Labels are wanted as before. -/
  withLabels : g'.withLabels = g.withLabels
  /-- New triples are about blank nodes and make none of them a check. -/
  only : ∀ t ∈ g'.graph, t ∈ g.graph ∨
    t.subject.isBlank = true ∧ ¬(t.predicate = .type ∧ t.object = .checkClass)

namespace Elaborates

/-- Writing nothing. -/
theorem refl (g : CoverageGraph) : Elaborates g g := ⟨rfl, fun _ => .inl⟩

/-- Writing twice. -/
theorem trans (h : Elaborates g g') (h' : Elaborates g' g'') : Elaborates g g'' where
  withLabels := h'.withLabels.trans h.withLabels
  only t ht := (h'.only t ht).elim (h.only t) .inr

/-- Making nodes and noting them states nothing. -/
theorem of_eq (hgraph : g'.graph = g.graph) (hlabels : g'.withLabels = g.withLabels) :
    Elaborates g g' :=
  ⟨hlabels, fun _ ht => .inl (hgraph ▸ ht)⟩

end Elaborates

/-- Stating a property of a blank node. -/
theorem state_elaborates (hnode : node.isBlank = true) (hp : p ≠ .type ∨ o ≠ .checkClass) :
    Elaborates g (g.state node p o) where
  withLabels := rfl
  only t ht := by
    rcases Graph.mem_insert.1 ht with rfl | ht
    · exact .inr ⟨hnode, fun h => hp.elim (· h.1) (· h.2)⟩
    · exact .inl ht

/-- Labelling a blank node. -/
theorem stateLabel_elaborates (text : String) (hnode : node.isBlank = true) :
    Elaborates g (g.stateLabel node text) := by
  unfold stateLabel
  split
  · exact state_elaborates hnode (.inl (by decide))
  · exact .refl g

/-- Writing a list. -/
theorem addList_elaborates (g : CoverageGraph) (items : List Node) :
    Elaborates g (g.addList items).2 := by
  induction items generalizing g with
  | nil => exact .refl g
  | cons item items ih =>
    have hfresh : Elaborates g g.fresh.2 := .of_eq rfl rfl
    have hfirst : Elaborates g.fresh.2 (g.fresh.2.state g.fresh.1 .first item) :=
      state_elaborates rfl (.inl (by decide))
    have hrest := ih (g.fresh.2.state g.fresh.1 .first item)
    exact ((hfresh.trans hfirst).trans hrest).trans (state_elaborates rfl (.inl (by decide)))

/-- Stating a list as a property of a blank node. -/
theorem stateList_elaborates (hnode : node.isBlank = true) (hp : p ≠ .type) (items : List Node) :
    Elaborates g (g.stateList node p items) :=
  (addList_elaborates g items).trans (state_elaborates hnode (.inl hp))

mutual

/-- Writing a tag. -/
theorem addTag_elaborates (g : CoverageGraph) : ∀ t : Tag, Elaborates g (g.addTag t).2
  | .mk n ts => by
    cases h : g.tagNode? (.mk n ts) with
    | some node =>
      rw [addTag_of_some h]
      exact .refl g
    | none =>
      rw [addTag_of_none h]
      have hnoted : Elaborates g
          { g.fresh.2 with tagNodes := (.mk n ts, g.fresh.1) :: g.tagNodes } := .of_eq rfl rfl
      have hopen : Elaborates g (g.openTag n ts) :=
        (hnoted.trans (state_elaborates rfl (.inr (by decide)))).trans
          (state_elaborates rfl (.inl (by decide)))
      refine (hopen.trans ?_).trans (stateLabel_elaborates _ rfl)
      unfold stateArguments
      split
      · exact .refl _
      · exact (addTags_elaborates (g.openTag n ts) ts).trans
          (stateList_elaborates rfl (by decide) _)

/-- Writing several tags. -/
theorem addTags_elaborates (g : CoverageGraph) : ∀ ts : List Tag, Elaborates g (g.addTags ts).2
  | [] => .refl g
  | t :: ts => (addTag_elaborates g t).trans (addTags_elaborates (g.addTag t).2 ts)

end

/-- Stating the members of a blank node. -/
theorem addMembers_elaborates (hnode : node.isBlank = true) (ts : List Tag) :
    Elaborates g (g.addMembers node ts) := by
  induction ts generalizing g with
  | nil => exact .refl g
  | cons t ts ih =>
    have hmember : Elaborates (g.addTag t).2 ((g.addTag t).2.state node .member (g.addTag t).1) :=
      state_elaborates hnode (.inl (by decide))
    exact ((addTag_elaborates g t).trans hmember).trans ih

/-- Writing several type sets. -/
theorem addTypeSets_elaborates (g : CoverageGraph) (ss : List TypeSet) :
    Elaborates g (g.addTypeSets ss).2 := by
  induction ss generalizing g with
  | nil => exact .refl g
  | cons s ss ih =>
    have hfresh : Elaborates g g.fresh.2 := .of_eq rfl rfl
    have hopen : Elaborates g.fresh.2 g.openTypeSet := state_elaborates rfl (.inr (by decide))
    have hmembers : Elaborates g.openTypeSet (g.addTypeSet s).2 :=
      addMembers_elaborates rfl s.toList
    exact ((hfresh.trans hopen).trans hmembers).trans (ih (g.addTypeSet s).2)

/-- Writing a signature. -/
theorem addSignature_elaborates (g : CoverageGraph) (s : Signature) :
    Elaborates g (g.addSignature s).2 := by
  cases h : g.signatureNode? s with
  | some node =>
    rw [addSignature_of_some h]
    exact .refl g
  | none =>
    rw [addSignature_of_none h]
    have hnoted : Elaborates g
        { g.fresh.2 with signatureNodes := (s, g.fresh.1) :: g.signatureNodes } := .of_eq rfl rfl
    have hopen : Elaborates g (g.openSignature s) :=
      hnoted.trans (state_elaborates rfl (.inr (by decide)))
    have hsets := addTypeSets_elaborates (g.openSignature s) s.parameters
    exact ((hopen.trans hsets).trans (stateList_elaborates rfl (by decide) _)).trans
      (stateLabel_elaborates _ rfl)

/-! ## The nodes of signatures -/

/-- Another signature is noted with a node made for it. -/
theorem signatureNodes_addSignature {s : Signature} (h : g.signatureNode? s = none) :
    (g.addSignature s).2.signatureNodes = (s, g.fresh.1) :: g.signatureNodes := by
  rw [addSignature_of_none h, (noted_stateLabel _ _ _).2]
  exact (noted_addList _ _).2.trans (signatureNodes_addTypeSets _ _)

/-- A signature that was written has the node returned for it. -/
theorem signatureNode?_addSignature_self (g : CoverageGraph) (s : Signature) :
    (g.addSignature s).2.signatureNode? s = some (g.addSignature s).1 := by
  cases h : g.signatureNode? s with
  | some node =>
    rw [addSignature_of_some h]
    exact h
  | none =>
    have hnode : (g.addSignature s).1 = g.fresh.1 := by rw [addSignature_of_none h]
    rw [hnode, signatureNode?, signatureNodes_addSignature h, List.find?_cons_of_pos (by simp)]
    rfl

/-- A signature that has a node keeps it. -/
theorem signatureNode?_addSignature {s : Signature} (h : g.signatureNode? s = some node)
    (t : Signature) : (g.addSignature t).2.signatureNode? s = some node := by
  cases ht : g.signatureNode? t with
  | some node' =>
    rw [addSignature_of_some ht]
    exact h
  | none =>
    have hne : t ≠ s := by
      rintro rfl
      rw [h] at ht
      cases ht
    rw [signatureNode?, signatureNodes_addSignature ht, List.find?_cons_of_neg (by simp [hne])]
    exact h

/-! ## Writing about one check -/

/-- A node that a check can have: one made from a name, or one made before. -/
def IsRoot (g : CoverageGraph) (node : Node) : Prop := (∃ n, node = .check n) ∨ g.Known node

/-- A graph that is written further, where all that is said about the nodes of
checks is said about one of them. -/
structure Writes (root : Node) (said : Node → Node → Prop) (g g' : CoverageGraph) : Prop where
  /-- Labels are wanted as before. -/
  withLabels : g'.withLabels = g.withLabels
  /-- Known nodes stay known. -/
  known : ∀ s, g.Known s → g'.Known s
  /-- Signatures keep their nodes. -/
  noted : ∀ s o, g.signatureNode? s = some o → g'.signatureNode? s = some o
  /-- About the nodes of checks, only the given statements are new. -/
  about : ∀ s, g.IsRoot s → ∀ p o, Triple.mk s p o ∈ g'.graph ↔
    Triple.mk s p o ∈ g.graph ∨ s = root ∧ said p o
  /-- No other node becomes a check. -/
  checks : ∀ s, Triple.mk s .type .checkClass ∈ g'.graph →
    Triple.mk s .type .checkClass ∈ g.graph ∨ s = root

namespace Writes

variable {said said' : Node → Node → Prop}

/-- The nodes of checks stay such nodes. -/
theorem isRoot (h : Writes root said g g') (hs : g.IsRoot s) : g'.IsRoot s :=
  hs.imp_right (h.known s)

/-- Saying nothing. -/
theorem refl (g : CoverageGraph) : Writes root (fun _ _ => False) g g where
  withLabels := rfl
  known _ h := h
  noted _ _ h := h
  about _ _ _ _ := by simp only [and_false, or_false]
  checks _ h := .inl h

/-- Saying something and then something else. -/
theorem trans (h : Writes root said g g') (h' : Writes root said' g' g'') :
    Writes root (fun p o => said p o ∨ said' p o) g g'' where
  withLabels := h'.withLabels.trans h.withLabels
  known s hs := h'.known s (h.known s hs)
  noted s o hs := h'.noted s o (h.noted s o hs)
  about s hs p o := by rw [h'.about s (h.isRoot hs), h.about s hs, or_assoc, and_or_left]
  checks s hs := (h'.checks s hs).elim (h.checks s) .inr

/-- Saying the same in other words. -/
theorem congr (h : Writes root said g g') (hsaid : ∀ p o, said p o ↔ said' p o) :
    Writes root said' g g' where
  withLabels := h.withLabels
  known := h.known
  noted := h.noted
  about s hs p o := by rw [h.about s hs, hsaid]
  checks := h.checks

/-- The node of a signature that has one is the same afterwards. -/
theorem signatureNode?_iff (h : Writes root said g g') {s : Signature}
    (hs : ∃ o, g.signatureNode? s = some o) :
    g'.signatureNode? s = some o ↔ g.signatureNode? s = some o := by
  obtain ⟨o', ho'⟩ := hs
  rw [h.noted s o' ho', ho']

end Writes

/-- Stating a property says just that. -/
theorem state_writes (g : CoverageGraph) (root p o : Node) :
    Writes root (fun q o' => q = p ∧ o' = o) g (g.state root p o) where
  withLabels := rfl
  known _ h := h
  noted _ _ h := h
  about s _ q o' := by
    rw [state, Graph.mem_insert, or_comm, Triple.mk.injEq]
  checks s hs := by
    rcases Graph.mem_insert.1 hs with heq | hs
    · exact .inr (Triple.mk.inj heq).1
    · exact .inl hs

/-- Labelling a node says its label, if labels are wanted. -/
theorem stateLabel_writes (g : CoverageGraph) (root : Node) (text : String) :
    Writes root (fun p o => p = .label ∧ g.withLabels = true ∧ o = .literal (.text text)) g
      (g.stateLabel root text) := by
  by_cases hlabels : g.withLabels = true
  · rw [stateLabel, if_pos hlabels]
    exact (state_writes g root .label _).congr fun p o => by simp only [hlabels, true_and]
  · rw [stateLabel, if_neg hlabels]
    exact (Writes.refl g).congr fun p o => by simp [hlabels]

/-- Writing a signature says nothing about the nodes of checks. -/
theorem addSignature_writes (g : CoverageGraph) (root : Node) (s : Signature) :
    Writes root (fun _ _ => False) g (g.addSignature s).2 := by
  have hkeeps : Keeps (fun _ => True) g (g.addSignature s).2 := addSignature_keeps g s
  have helaborates := addSignature_elaborates g s
  refine ⟨helaborates.withLabels, fun _ => hkeeps.known,
    fun _ _ h => signatureNode?_addSignature h s, fun u hu p o => ?_, fun u hu => ?_⟩
  · simp only [and_false, or_false]
    refine ⟨fun ho => ?_, hkeeps.stated _⟩
    rcases hu with ⟨n, rfl⟩ | hknown
    · exact (helaborates.only _ ho).elim id fun h => absurd h.1 Bool.false_ne_true
    · exact hkeeps.silent u ⟨trivial, hknown⟩ p o ho
  · exact (helaborates.only _ hu).imp_right fun h => absurd ⟨rfl, rfl⟩ h.2

/-- Writing signatures as values of a property gives each of them a node and
states these nodes. -/
theorem addSignatures_writes (g : CoverageGraph) (root p : Node) (ss : List Signature) :
    Writes root (fun q o => q = p ∧ ∃ s ∈ ss, (g.addSignatures root p ss).signatureNode? s = some o)
        g (g.addSignatures root p ss) ∧
      ∀ s ∈ ss, ∃ o, (g.addSignatures root p ss).signatureNode? s = some o := by
  induction ss generalizing g with
  | nil => exact ⟨(Writes.refl g).congr (by simp), by simp⟩
  | cons s ss ih =>
    have hfirst := (addSignature_writes g root s).trans
      (state_writes (g.addSignature s).2 root p (g.addSignature s).1)
    obtain ⟨hrest, hnoted⟩ := ih ((g.addSignature s).2.state root p (g.addSignature s).1)
    have hs : (g.addSignatures root p (s :: ss)).signatureNode? s = some (g.addSignature s).1 :=
      hrest.noted _ _ (signatureNode?_addSignature_self g s)
    refine ⟨(hfirst.trans hrest).congr fun q o => ?_, List.forall_mem_cons.2 ⟨⟨_, hs⟩, hnoted⟩⟩
    rw [addSignatures] at hs ⊢
    simp only [List.exists_mem_cons_iff, hs, Option.some.injEq, false_or, ← and_or_left,
      eq_comm (a := o)]

/-! ## What the outcome of a check states -/

/-- The statements about the outcome of a check apart from its name, in which
signatures stand for their nodes. -/
def StatesOutcome (g : CoverageGraph) (r : CheckRecord) (p o : Node) : Prop :=
  p = .type ∧ o = .checkClass ∨
  p = .interface ∧ g.signatureNode? r.interface = some o ∨
  (p = .implementation ∧ ∃ s ∈ r.implementations, g.signatureNode? s = some o) ∨
  (p = .leaf ∧ ∃ s ∈ r.leaves, g.signatureNode? s = some o) ∨
  p = .complete ∧ o = .literal (.truth r.leaves.isEmpty)

/-- The statements about the outcome of a check. -/
def States (g : CoverageGraph) (r : CheckRecord) (p o : Node) : Prop :=
  g.StatesOutcome r p o ∨
  p = .label ∧ g.withLabels = true ∧ ∃ n, r.name = some n ∧ o = .literal (.text n.text)

/-- All signatures of a check have nodes. -/
structure Noted (g : CoverageGraph) (r : CheckRecord) : Prop where
  /-- The interface has a node. -/
  interface : ∃ o, g.signatureNode? r.interface = some o
  /-- The implementations have nodes. -/
  implementations : ∀ s ∈ r.implementations, ∃ o, g.signatureNode? s = some o
  /-- The leaves have nodes. -/
  leaves : ∀ s ∈ r.leaves, ∃ o, g.signatureNode? s = some o

/-- The signatures of a check keep their nodes. -/
theorem Writes.noted_record {said : Node → Node → Prop} (h : Writes root said g g')
    (hr : g.Noted r) : g'.Noted r where
  interface := hr.interface.imp (h.noted _)
  implementations s hs := (hr.implementations s hs).imp (h.noted s)
  leaves s hs := (hr.leaves s hs).imp (h.noted s)

/-- What the outcome of a check states apart from its name stays the same. -/
theorem Writes.statesOutcome_iff {said : Node → Node → Prop} (h : Writes root said g g')
    (hr : g.Noted r) : g'.StatesOutcome r p o ↔ g.StatesOutcome r p o := by
  have hsome : ∀ ss : List Signature, (∀ s ∈ ss, ∃ o, g.signatureNode? s = some o) →
      ((∃ s ∈ ss, g'.signatureNode? s = some o) ↔ ∃ s ∈ ss, g.signatureNode? s = some o) :=
    fun ss hss => exists_congr fun s => and_congr_right fun hs => h.signatureNode?_iff (hss s hs)
  rw [StatesOutcome, StatesOutcome, h.signatureNode?_iff hr.interface,
    hsome _ hr.implementations, hsome _ hr.leaves]

/-- What the outcome of a check states stays the same. -/
theorem Writes.states_iff {said : Node → Node → Prop} (h : Writes root said g g')
    (hr : g.Noted r) : g'.States r p o ↔ g.States r p o := by
  rw [States, States, h.statesOutcome_iff hr, h.withLabels]

/-- Stating the parts of a check says what its outcome states. -/
theorem stateCheck_writes (g : CoverageGraph) (root : Node) (r : CheckRecord) :
    Writes root ((g.stateCheck root r.interface r.implementations r.leaves).StatesOutcome r) g
        (g.stateCheck root r.interface r.implementations r.leaves) ∧
      (g.stateCheck root r.interface r.implementations r.leaves).Noted r := by
  set typed := g.state root .type .checkClass
  set written := typed.addSignature r.interface
  set interfaced := written.2.state root .interface written.1
  set implemented := interfaced.addSignatures root .implementation r.implementations
  set reported := implemented.addSignatures root .leaf r.leaves
  have htyped := (state_writes g root .type .checkClass).trans
    (addSignature_writes typed root r.interface)
  have hinterface := htyped.trans (state_writes written.2 root .interface written.1)
  obtain ⟨himplementations, hnoted⟩ :=
    addSignatures_writes interfaced root .implementation r.implementations
  obtain ⟨hleaves, hnoted'⟩ := addSignatures_writes implemented root .leaf r.leaves
  have hcomplete := state_writes reported root .complete (.literal (.truth r.leaves.isEmpty))
  have hclosed : reported.signatureNode? r.interface = some written.1 :=
    hleaves.noted _ _ (himplementations.noted _ _
      (signatureNode?_addSignature_self typed r.interface))
  have hsame : ∀ o, (∃ s ∈ r.implementations, reported.signatureNode? s = some o) ↔
      ∃ s ∈ r.implementations, implemented.signatureNode? s = some o :=
    fun o => exists_congr fun s => and_congr_right fun hs =>
      hleaves.signatureNode?_iff (hnoted s hs)
  refine ⟨(((hinterface.trans himplementations).trans hleaves).trans hcomplete).congr
    fun p o => ?_, ⟨_, hclosed⟩, fun s hs => (hnoted s hs).imp (hleaves.noted s), hnoted'⟩
  show _ ↔ reported.StatesOutcome r p o
  rw [StatesOutcome, hclosed, hsame, Option.some.injEq, eq_comm (a := written.1)]
  simp only [or_false, or_assoc]
  rfl

/-- Write one outcome. -/
def addRecord (g : CoverageGraph) (r : CheckRecord) : Node × CoverageGraph :=
  g.addCheck r.interface r.implementations r.leaves r.name

/-- The node of a check, and the graph in which it is made. -/
def openCheck (g : CoverageGraph) : Option Name → Node × CoverageGraph
  | some n => (.check n, g)
  | none => g.fresh

/-- The node that is made for a check is one that a check can have. -/
theorem isRoot_openCheck (g : CoverageGraph) (name : Option Name) :
    (g.openCheck name).2.IsRoot (g.openCheck name).1 := by
  cases name with
  | some n => exact .inl ⟨n, rfl⟩
  | none => exact .inr g.known_fresh

/-- Making the node of a check says nothing. -/
theorem openCheck_writes (g : CoverageGraph) (root : Node) (name : Option Name) :
    Writes root (fun _ _ => False) g (g.openCheck name).2 := by
  cases name with
  | some n => exact .refl g
  | none =>
    refine ⟨rfl, fun s hs => hs.of_le (Nat.le_succ _), fun _ _ h => h, fun s _ p o => ?_,
      fun _ h => .inl h⟩
    simp only [and_false, or_false]
    rfl

/-- An unnamed check is written at a node made for it. -/
theorem addRecord_of_none (h : r.name = none) :
    g.addRecord r = (g.fresh.1,
      g.fresh.2.stateCheck g.fresh.1 r.interface r.implementations r.leaves) := by
  rw [addRecord, h]
  rfl

/-- A named check is written at the node of its name, and labelled. -/
theorem addRecord_of_some {n : Name} (h : r.name = some n) :
    g.addRecord r = (.check n,
      (g.stateCheck (.check n) r.interface r.implementations r.leaves).stateLabel (.check n)
        n.text) := by
  rw [addRecord, h]
  rfl

/-- Writing the outcome of a check says about its node what the outcome states. -/
theorem addRecord_writes (g : CoverageGraph) (r : CheckRecord) :
    (g.addRecord r).1 = (g.openCheck r.name).1 ∧
      Writes (g.addRecord r).1 ((g.addRecord r).2.States r) (g.openCheck r.name).2
        (g.addRecord r).2 ∧
      (g.addRecord r).2.Noted r := by
  cases hname : r.name with
  | none =>
    rw [addRecord_of_none hname]
    obtain ⟨hwrites, hnoted⟩ := stateCheck_writes g.fresh.2 g.fresh.1 r
    refine ⟨rfl, hwrites.congr fun p o => ?_, hnoted⟩
    simp only [States, hname, reduceCtorEq, false_and, exists_false, and_false, or_false]
  | some n =>
    rw [addRecord_of_some hname]
    obtain ⟨hwrites, hnoted⟩ := stateCheck_writes g (.check n) r
    have hlabel := stateLabel_writes
      (g.stateCheck (.check n) r.interface r.implementations r.leaves) (.check n) n.text
    refine ⟨rfl, (hwrites.trans hlabel).congr fun p o => ?_, hlabel.noted_record hnoted⟩
    refine or_congr (hlabel.statesOutcome_iff hnoted).symm ?_
    simp only [hlabel.withLabels, hname, Option.some.injEq, exists_eq_left']

end CoverageGraph

end DispatchCoverage

import DispatchCoverage.Graph.Address
import DispatchCoverage.Proofs.CheckNodes

/-!
# Addresses in a graph of checks

A graph of checks is made of blank nodes, of literals, of the terms that checks are
described with, and of the nodes of named checks. Every step of writing adds only
such nodes. The address of a named check ends in its name as it is, and all other
addresses can stand in angle brackets. So a form that brackets addresses can express
the outcomes of some checks exactly if no name of a check has a character that is
forbidden there.
-/

namespace DispatchCoverage

/-- An address can be bracketed exactly if both parts of it can. -/
theorem isPlainAddress_append (space name : String) :
    isPlainAddress (space ++ name) = (isPlainAddress space && isPlainAddress name) := by
  rw [isPlainAddress, String.toList_append, List.all_append]
  rfl

/-- The namespace of lists and types can be bracketed. -/
theorem plain_rdf : isPlainAddress Namespaces.rdf = true := by decide

/-- The namespace of coverage terms can be bracketed. -/
theorem plain_pck : isPlainAddress Namespaces.pck = true := by decide

/-- A term can be bracketed if its namespace and its name can. -/
theorem Node.isSafe_iri {space name : String} (hspace : isPlainAddress space = true)
    (hname : isPlainAddress name = true) : (iri (space ++ name)).isSafe = true := by
  rw [isSafe, isPlainAddress_append, hspace, hname]
  rfl

/-- The address of a named check can be bracketed exactly if its name has no
forbidden character. -/
theorem Node.isSafe_check_iff {n : Name} :
    (Node.check n).isSafe = true ↔ ∀ c ∈ n.text.toList, c ∉ forbiddenInAddress := by
  have hspace : isPlainAddress Namespaces.ex = true := by decide
  rw [check, isSafe, isPlainAddress_append, hspace, Bool.true_and]
  simp only [isPlainAddress, List.all_eq_true, Bool.not_eq_true', List.contains_eq_mem,
    decide_eq_false_iff_not]

namespace CoverageGraph

variable {g : CoverageGraph} {s p o : Node}

/-- A graph in which all addresses can be bracketed, and so can those of the nodes
that were noted. -/
structure Plain (g : CoverageGraph) : Prop where
  /-- The nodes of the triples. -/
  triples : ∀ t ∈ g.graph,
    t.subject.isSafe = true ∧ t.predicate.isSafe = true ∧ t.object.isSafe = true
  /-- The nodes of tags. -/
  tags : ∀ entry ∈ g.tagNodes, entry.2.isSafe = true
  /-- The nodes of signatures. -/
  signatures : ∀ entry ∈ g.signatureNodes, entry.2.isSafe = true

namespace Plain

/-- Before the first check nothing is written. -/
theorem start (labels : Bool) : Plain { withLabels := labels } where
  triples _ h := absurd h List.not_mem_nil
  tags _ h := absurd h List.not_mem_nil
  signatures _ h := absurd h List.not_mem_nil

section Statements

variable (h : g.Plain)
include h

/-- Making a node. -/
theorem fresh : g.fresh.2.Plain := ⟨h.triples, h.tags, h.signatures⟩

/-- Noting the node of a tag. -/
theorem noteTag (t : Tag) (hs : s.isSafe = true) :
    Plain { g with tagNodes := (t, s) :: g.tagNodes } :=
  ⟨h.triples, List.forall_mem_cons.2 ⟨hs, h.tags⟩, h.signatures⟩

/-- Noting the node of a signature. -/
theorem noteSignature (u : Signature) (hs : s.isSafe = true) :
    Plain { g with signatureNodes := (u, s) :: g.signatureNodes } :=
  ⟨h.triples, h.tags, List.forall_mem_cons.2 ⟨hs, h.signatures⟩⟩

/-- Stating a property. -/
theorem state (hs : s.isSafe = true) (hp : p.isSafe = true) (ho : o.isSafe = true) :
    (g.state s p o).Plain where
  triples t ht := by
    rcases Graph.mem_insert.1 ht with rfl | ht
    · exact ⟨hs, hp, ho⟩
    · exact h.triples t ht
  tags := h.tags
  signatures := h.signatures

/-- Stating a coverage term. -/
theorem stateTerm {name : String} (hs : s.isSafe = true) (hname : isPlainAddress name = true)
    (ho : o.isSafe = true) : (g.state s (.iri (Namespaces.pck ++ name)) o).Plain :=
  h.state hs (Node.isSafe_iri plain_pck hname) ho

/-- Stating that a node belongs to a class of coverage terms. -/
theorem stateClass {name : String} (hs : s.isSafe = true) (hname : isPlainAddress name = true) :
    (g.state s .type (.iri (Namespaces.pck ++ name))).Plain :=
  h.state hs (Node.isSafe_iri plain_rdf (by decide)) (Node.isSafe_iri plain_pck hname)

/-- Labelling a node. -/
theorem stateLabel (hs : s.isSafe = true) (text : String) : (g.stateLabel s text).Plain := by
  unfold CoverageGraph.stateLabel
  split
  · exact h.state hs (by decide) rfl
  · exact h

/-- Writing a list. -/
theorem addList {items : List Node} (hitems : ∀ item ∈ items, item.isSafe = true) :
    (g.addList items).1.isSafe = true ∧ (g.addList items).2.Plain := by
  induction items generalizing g with
  | nil => exact ⟨Node.isSafe_iri plain_rdf (by decide), h⟩
  | cons item items ih =>
    obtain ⟨hitem, hitems⟩ := List.forall_mem_cons.1 hitems
    have hsafe : g.fresh.1.isSafe = true := rfl
    have hfirst : (g.fresh.2.state g.fresh.1 .first item).Plain :=
      h.fresh.state hsafe (Node.isSafe_iri plain_rdf (by decide)) hitem
    obtain ⟨hnode, hrest⟩ := ih hfirst hitems
    exact ⟨hsafe, hrest.state hsafe (Node.isSafe_iri plain_rdf (by decide)) hnode⟩

/-- Stating a list as a property. -/
theorem stateList {items : List Node} (hs : s.isSafe = true) (hp : p.isSafe = true)
    (hitems : ∀ item ∈ items, item.isSafe = true) : (g.stateList s p items).Plain := by
  obtain ⟨hnode, hlist⟩ := h.addList hitems
  exact hlist.state hs hp hnode

end Statements

mutual

/-- Writing a tag. -/
theorem addTag {g : CoverageGraph} (h : g.Plain) :
    ∀ t : Tag, (g.addTag t).1.isSafe = true ∧ (g.addTag t).2.Plain
  | .mk n ts => by
    cases hnode : g.tagNode? (.mk n ts) with
    | some node =>
      rw [addTag_of_some hnode]
      exact ⟨h.tags _ (mem_of_find?_key hnode), h⟩
    | none =>
      rw [addTag_of_none hnode]
      have hsafe : g.fresh.1.isSafe = true := rfl
      have hopen : (g.openTag n ts).Plain :=
        ((h.fresh.noteTag (.mk n ts) hsafe).stateClass hsafe (by decide)).stateTerm hsafe
          (by decide) rfl
      refine ⟨hsafe, Plain.stateLabel ?_ hsafe _⟩
      unfold stateArguments
      split
      · exact hopen
      · obtain ⟨hitems, htags⟩ := addTags hopen ts
        exact htags.stateList hsafe (Node.isSafe_iri plain_pck (by decide)) hitems

/-- Writing several tags. -/
theorem addTags {g : CoverageGraph} (h : g.Plain) :
    ∀ ts : List Tag, (∀ node ∈ (g.addTags ts).1, node.isSafe = true) ∧ (g.addTags ts).2.Plain
  | [] => ⟨fun _ hnode => absurd hnode List.not_mem_nil, h⟩
  | t :: ts => by
    obtain ⟨hnode, htag⟩ := addTag h t
    obtain ⟨hnodes, htags⟩ := addTags htag ts
    exact ⟨List.forall_mem_cons.2 ⟨hnode, hnodes⟩, htags⟩

end

section Signatures

variable (h : g.Plain)
include h

/-- Stating the members of a type set. -/
theorem addMembers (hs : s.isSafe = true) (ts : List Tag) : (g.addMembers s ts).Plain := by
  induction ts generalizing g with
  | nil => exact h
  | cons t ts ih =>
    obtain ⟨hmember, htag⟩ := h.addTag t
    exact ih (htag.stateTerm hs (by decide) hmember)

/-- Writing several type sets. -/
theorem addTypeSets (us : List TypeSet) :
    (∀ node ∈ (g.addTypeSets us).1, node.isSafe = true) ∧ (g.addTypeSets us).2.Plain := by
  induction us generalizing g with
  | nil => exact ⟨fun _ hnode => absurd hnode List.not_mem_nil, h⟩
  | cons u us ih =>
    have hsafe : g.fresh.1.isSafe = true := rfl
    have hopen : g.openTypeSet.Plain := h.fresh.stateClass hsafe (by decide)
    obtain ⟨hnodes, hsets⟩ := ih (hopen.addMembers hsafe u.toList)
    exact ⟨List.forall_mem_cons.2 ⟨hsafe, hnodes⟩, hsets⟩

/-- Writing a signature. -/
theorem addSignature (u : Signature) :
    (g.addSignature u).1.isSafe = true ∧ (g.addSignature u).2.Plain := by
  cases hnode : g.signatureNode? u with
  | some node =>
    rw [addSignature_of_some hnode]
    exact ⟨h.signatures _ (mem_of_find?_key hnode), h⟩
  | none =>
    rw [addSignature_of_none hnode]
    have hsafe : g.fresh.1.isSafe = true := rfl
    have hopen : (g.openSignature u).Plain :=
      (h.fresh.noteSignature u hsafe).stateClass hsafe (by decide)
    obtain ⟨hitems, hsets⟩ := hopen.addTypeSets u.parameters
    have hlist : ((g.openSignature u).stateParameters g.fresh.1 u.parameters).Plain :=
      hsets.stateList hsafe (Node.isSafe_iri plain_pck (by decide)) hitems
    exact ⟨hsafe, hlist.stateLabel hsafe _⟩

/-- Writing several signatures as values of a property. -/
theorem addSignatures (hs : s.isSafe = true) (hp : p.isSafe = true) (us : List Signature) :
    (g.addSignatures s p us).Plain := by
  induction us generalizing g with
  | nil => exact h
  | cons u us ih =>
    obtain ⟨hnode, hsignature⟩ := h.addSignature u
    exact ih (hsignature.state hs hp hnode)

/-- Stating the parts of a check. -/
theorem stateCheck (hs : s.isSafe = true) (interface : Signature)
    (implementations leaves : List Signature) :
    (g.stateCheck s interface implementations leaves).Plain := by
  have htyped : (g.state s .type .checkClass).Plain :=
    h.stateClass hs (by decide)
  obtain ⟨hnode, hinterface⟩ := htyped.addSignature interface
  set written := (g.state s .type .checkClass).addSignature interface
  have hstated : (written.2.state s .interface written.1).Plain :=
    hinterface.stateTerm hs (by decide) hnode
  have himplemented : ((written.2.state s .interface written.1).addSignatures s .implementation
      implementations).Plain :=
    hstated.addSignatures hs (Node.isSafe_iri plain_pck (by decide)) implementations
  have hleaf : Node.leaf.isSafe = true := Node.isSafe_iri plain_pck (by decide)
  exact (himplemented.addSignatures hs hleaf leaves).stateTerm hs (by decide) rfl

/-- Writing an outcome whose name, if it has one, has no forbidden character. -/
theorem addRecord {r : CheckRecord}
    (hname : ∀ n, r.name = some n → (Node.check n).isSafe = true) : (g.addRecord r).2.Plain := by
  cases hn : r.name with
  | none =>
    rw [addRecord_of_none hn]
    exact h.fresh.stateCheck rfl _ _ _
  | some n =>
    have hsafe : (Node.check n).isSafe = true := hname n hn
    rw [addRecord_of_some hn]
    exact (h.stateCheck hsafe _ _ _).stateLabel hsafe _

/-- Writing several such outcomes. -/
theorem addRecords {rs : List CheckRecord}
    (hnames : ∀ r ∈ rs, ∀ n, r.name = some n → (Node.check n).isSafe = true) :
    (g.addRecords rs).2.Plain := by
  induction rs generalizing g with
  | nil => exact h
  | cons r rs ih =>
    obtain ⟨hname, hnames⟩ := List.forall_mem_cons.1 hnames
    exact ih (h.addRecord hname) hnames

end Signatures

end Plain

/-- The node of a name that an outcome has is made a check. -/
theorem mem_addRecords_of_name {rs : List CheckRecord} {r : CheckRecord} {n : Name} (hr : r ∈ rs)
    (hn : r.name = some n) :
    Triple.mk (.check n) .type .checkClass ∈ (addRecords {} rs).2.graph := by
  have h : Recorded (addRecords {} rs).2 ((addRecords {} rs).1.zip rs) :=
    (Recorded.start true).addRecords rs
  have hsnd : ((addRecords {} rs).1.zip rs).map Prod.snd = rs :=
    List.map_snd_zip (Nat.le_of_eq (length_addRecords _ rs).symm)
  rw [← hsnd] at hr
  obtain ⟨entry, hentry, rfl⟩ := List.mem_map.1 hr
  refine (h.checks _).2 ⟨entry, hentry, ?_⟩
  rcases h.made entry hentry with ⟨m, hm, hnode⟩ | ⟨hnone, _⟩
  · rw [hn] at hm
    cases hm
    exact hnode
  · rw [hn] at hnone
    cases hnone

/-- The outcomes of some checks can be expressed in a form exactly if the form does not
bracket addresses, or no name has a character that is forbidden there. -/
theorem expressible_addRecords_iff {format : Format} (rs : List CheckRecord) :
    (addRecords {} rs).2.graph.expressible format = true ↔
      (format.bracketsAddresses = true →
        ∀ r ∈ rs, ∀ n, r.name = some n → ∀ c ∈ n.text.toList, c ∉ forbiddenInAddress) := by
  have hsafe : (addRecords {} rs).2.graph.expressible format = true ↔
      (format.bracketsAddresses = true → ∀ t ∈ (addRecords {} rs).2.graph,
        t.subject.isSafe = true ∧ t.predicate.isSafe = true ∧ t.object.isSafe = true) := by
    rw [Graph.expressible]
    cases format.bracketsAddresses with
    | false => simp
    | true =>
      simp only [Bool.not_true, Bool.false_or, List.all_eq_true, Bool.and_eq_true, and_assoc,
        forall_const]
      rfl
  simp only [hsafe, ← Node.isSafe_check_iff]
  refine imp_congr_right fun _ => ⟨fun hall r hr n hn => ?_, fun hnames => ?_⟩
  · exact (hall _ (mem_addRecords_of_name hr hn)).1
  · exact ((Plain.start true).addRecords hnames).triples

end CoverageGraph

end DispatchCoverage

import Mathlib.Data.Finset.Dedup
import Mathlib.Data.Finset.Card
import DispatchCoverage.Proofs.WritingSteps

/-!
# Shared nodes

Equal tags share one node, and so do equal signatures. A coverage graph notes which
tags and signatures have nodes, and every step of writing keeps this register in
accord with the graph: each key is noted once, and the nodes that are noted are the
tags, and the signatures, of the graph. Since a node reads back as its key,
different keys have different nodes. Since the arguments of a tag are read back from
nodes with names, and only tags have names, the tags that have nodes are just those
that occur in what was written.
-/

namespace DispatchCoverage

namespace Graph

variable {α : Type} {g : Graph} {entries : List (α × Node)} {cls s p o node : Node} {a b : α}

/-- Entries that register the resources of a class: no key is entered twice, and the
resources of the class are the nodes that are entered. -/
structure Registers (g : Graph) (cls : Node) (entries : List (α × Node)) : Prop where
  /-- No key is entered twice. -/
  keys : (entries.map Prod.fst).Nodup
  /-- The nodes that are entered are the resources of the class. -/
  nodes : ∀ s, Triple.mk s .type cls ∈ g ↔ s ∈ entries.map Prod.snd

namespace Registers

variable (h : g.Registers cls entries)
include h

/-- A statement that adds nothing to the class needs no entry. -/
theorem insert (hne : ¬(p = .type ∧ o = cls)) : (g.insert ⟨s, p, o⟩).Registers cls entries where
  keys := h.keys
  nodes s' := by
    rw [← h.nodes, mem_insert, or_iff_right]
    exact fun heq => hne ⟨(Triple.mk.inj heq).2.1.symm, (Triple.mk.inj heq).2.2.symm⟩

/-- A key that is not entered yet is entered together with a resource. -/
theorem enter (ha : a ∉ entries.map Prod.fst) (node : Node) :
    (g.insert ⟨node, .type, cls⟩).Registers cls ((a, node) :: entries) where
  keys := List.nodup_cons.2 ⟨ha, h.keys⟩
  nodes s := by
    rw [mem_insert, h.nodes, List.map_cons, List.mem_cons, Triple.mk.injEq, and_iff_left ⟨rfl, rfl⟩]

/-- If different keys have different nodes, the class has as many resources as there
are different keys. -/
theorem card_subjects [DecidableEq α] {keys : List α}
    (hinjective : ∀ e ∈ entries, ∀ e' ∈ entries, e.2 = e'.2 → e.1 = e'.1)
    (hkeys : ∀ a, a ∈ entries.map Prod.fst ↔ a ∈ keys) :
    (g.subjects (some .type) (some cls)).toFinset.card = keys.toFinset.card := by
  have hnodes : (entries.map Prod.snd).Nodup :=
    (List.Nodup.of_map _ h.keys).map_on fun e he e' he' heq =>
      Prod.ext (hinjective e he e' he' heq) heq
  have hperm : (g.subjects (some .type) (some cls)).Perm (entries.map Prod.snd) :=
    (List.perm_ext_iff_of_nodup (nodup_subjects g _ _) hnodes).2 fun s =>
      mem_subjects.trans (h.nodes s)
  calc (g.subjects (some .type) (some cls)).toFinset.card
      = (g.subjects (some .type) (some cls)).length :=
        List.toFinset_card_of_nodup (nodup_subjects g _ _)
    _ = (entries.map Prod.fst).length := by rw [hperm.length_eq, List.length_map, List.length_map]
    _ = (entries.map Prod.fst).toFinset.card := (List.toFinset_card_of_nodup h.keys).symm
    _ = keys.toFinset.card := by
      refine congrArg Finset.card (Finset.ext fun a => ?_)
      rw [List.mem_toFinset, List.mem_toFinset, hkeys]

end Registers

end Graph

namespace CoverageGraph

variable {T : Tag → Prop} {S : Signature → Prop} {g g' g'' : CoverageGraph} {node : Node}
  {t u : Tag} {s : Signature}

/-! ## What a step keeps -/

section Lookup

variable {α : Type} [DecidableEq α] {entries : List (α × Node)} {a b : α}

/-- A key is found if and only if it is noted. -/
theorem exists_find?_key_iff :
    (∃ node, (entries.find? fun entry => entry.1 == a).map Prod.snd = some node) ↔
      a ∈ entries.map Prod.fst := by
  constructor
  · exact fun ⟨node, h⟩ => List.mem_map.2 ⟨_, mem_of_find?_key h, rfl⟩
  · intro h
    obtain ⟨entry, hentry, rfl⟩ := List.mem_map.1 h
    have hfound : (entries.find? fun e => e.1 == entry.1).isSome :=
      List.find?_isSome.2 ⟨entry, hentry, by simp⟩
    obtain ⟨e, he⟩ := Option.isSome_iff_exists.1 hfound
    exact ⟨e.2, by rw [he]; rfl⟩

/-- A key that is not found is not noted. -/
theorem not_mem_of_find?_key
    (h : (entries.find? fun entry => entry.1 == a).map Prod.snd = none) :
    a ∉ entries.map Prod.fst := by
  intro hmem
  obtain ⟨node, hnode⟩ := exists_find?_key_iff.2 hmem
  rw [h] at hnode
  cases hnode

/-- What is found for a key stays so when another key is noted in front. -/
theorem find?_key_cons {new : Node}
    (h : (entries.find? fun entry => entry.1 == a).map Prod.snd = some node)
    (hb : b ∉ entries.map Prod.fst) :
    ((((b, new) :: entries).find? fun entry => entry.1 == a).map Prod.snd) = some node := by
  have hne : b ≠ a := by
    rintro rfl
    exact hb (exists_find?_key_iff.1 ⟨node, h⟩)
  rw [List.find?_cons_of_neg (by simpa using hne)]
  exact h

end Lookup

/-- The tags that have nodes. -/
def tagKeys (g : CoverageGraph) : List Tag := g.tagNodes.map Prod.fst

/-- The signatures that have nodes. -/
def signatureKeys (g : CoverageGraph) : List Signature := g.signatureNodes.map Prod.fst

/-- The register of a graph is in accord with it. -/
structure Registered (g : CoverageGraph) : Prop where
  /-- Tags are registered. -/
  tags : g.graph.Registers .tagClass g.tagNodes
  /-- Signatures are registered. -/
  signatures : g.graph.Registers .signatureClass g.signatureNodes
  /-- Only nodes of tags have names. -/
  named : ∀ s o, Triple.mk s .name o ∈ g.graph → s ∈ g.tagNodes.map Prod.snd

/-- Every step keeps the register in accord with the graph. -/
theorem Step.registered (h : Step T S g g') (hg : g.Registered) : g'.Registered := by
  cases h with
  | make => exact ⟨hg.tags, hg.signatures, hg.named⟩
  | state node hneutral =>
    exact ⟨hg.tags.insert hneutral.notTag, hg.signatures.insert hneutral.notSignature,
      fun s o ho => hg.named s o ((Graph.mem_insert_ne hneutral.notName.symm).1 ho)⟩
  | @tag n ts hnone ht =>
    have hname : Node.name ≠ .type := by decide
    refine ⟨(hg.tags.enter (not_mem_of_find?_key hnone) g.fresh.1).insert (hname ·.1),
      (hg.signatures.insert (by decide)).insert (hname ·.1), fun s o ho => ?_⟩
    rcases Graph.mem_insert.1 ho with heq | ho
    · exact List.mem_cons.2 (.inl (Triple.mk.inj heq).1)
    · exact List.mem_cons_of_mem _ (hg.named s o ((Graph.mem_insert_ne (by decide)).1 ho))
  | signature hnone hs =>
    exact ⟨hg.tags.insert (by decide),
      hg.signatures.enter (not_mem_of_find?_key hnone) g.fresh.1,
      fun s o ho => hg.named s o ((Graph.mem_insert_ne (by decide)).1 ho)⟩

/-- A graph that is written further, in which tags and signatures keep their nodes
and only some kinds of them get nodes. -/
structure Enters (T : Tag → Prop) (S : Signature → Prop) (g g' : CoverageGraph) : Prop where
  /-- Tags keep their nodes. -/
  tagNode? : ∀ t node, g.tagNode? t = some node → g'.tagNode? t = some node
  /-- Signatures keep their nodes. -/
  signatureNode? : ∀ s node, g.signatureNode? s = some node → g'.signatureNode? s = some node
  /-- Tags that get a node are of the given kind. -/
  tagKeys : ∀ t ∈ g'.tagKeys, t ∈ g.tagKeys ∨ T t
  /-- Signatures that get a node are of the given kind. -/
  signatureKeys : ∀ s ∈ g'.signatureKeys, s ∈ g.signatureKeys ∨ S s

namespace Enters

/-- Writing nothing. -/
theorem refl (g : CoverageGraph) : Enters T S g g :=
  ⟨fun _ _ h => h, fun _ _ h => h, fun _ => .inl, fun _ => .inl⟩

/-- Writing twice. -/
theorem trans (h : Enters T S g g') (h' : Enters T S g' g'') : Enters T S g g'' where
  tagNode? t node ht := h'.tagNode? t node (h.tagNode? t node ht)
  signatureNode? s node hs := h'.signatureNode? s node (h.signatureNode? s node hs)
  tagKeys t ht := (h'.tagKeys t ht).elim (h.tagKeys t) .inr
  signatureKeys s hs := (h'.signatureKeys s hs).elim (h.signatureKeys s) .inr

/-- A tag that has a node is still one afterwards. -/
theorem mem_tagKeys (h : Enters T S g g') (ht : t ∈ g.tagKeys) : t ∈ g'.tagKeys :=
  exists_find?_key_iff.1 ((exists_find?_key_iff.2 ht).imp (h.tagNode? t))

/-- A signature that has a node is still one afterwards. -/
theorem mem_signatureKeys (h : Enters T S g g') (hs : s ∈ g.signatureKeys) :
    s ∈ g'.signatureKeys :=
  exists_find?_key_iff.1 ((exists_find?_key_iff.2 hs).imp (h.signatureNode? s))

end Enters

/-- A step enters a tag or a signature of the given kind, or nothing. -/
theorem Step.enters (h : Step T S g g') : Enters T S g g' := by
  cases h with
  | make => exact ⟨fun _ _ h => h, fun _ _ h => h, fun _ => .inl, fun _ => .inl⟩
  | state => exact ⟨fun _ _ h => h, fun _ _ h => h, fun _ => .inl, fun _ => .inl⟩
  | tag hnone ht =>
    exact ⟨fun _ _ h => find?_key_cons h (not_mem_of_find?_key hnone), fun _ _ h => h,
      fun u hu => (List.mem_cons.1 hu).elim (fun heq => .inr (heq ▸ ht)) .inl, fun _ => .inl⟩
  | signature hnone hs =>
    exact ⟨fun _ _ h => h, fun _ _ h => find?_key_cons h (not_mem_of_find?_key hnone),
      fun _ => .inl, fun u hu => (List.mem_cons.1 hu).elim (fun heq => .inr (heq ▸ hs)) .inl⟩

/-- Several steps keep the register in accord with the graph. -/
theorem Steps.registered (h : Steps T S g g') (hg : g.Registered) : g'.Registered := by
  induction h with
  | refl => exact hg
  | tail _ hstep ih => exact hstep.registered ih

/-- Several steps enter tags and signatures of the given kinds only. -/
theorem Steps.enters (h : Steps T S g g') : Enters T S g g' := by
  induction h with
  | refl => exact .refl g
  | tail _ hstep ih => exact ih.trans hstep.enters

/-- A tag that was written has the node returned for it. -/
theorem tagNode?_addTag_self (g : CoverageGraph) (t : Tag) :
    (g.addTag t).2.tagNode? t = some (g.addTag t).1 := by
  obtain ⟨n, ts⟩ := t
  cases h : g.tagNode? (.mk n ts) with
  | some node =>
    rw [addTag_of_some h]
    exact h
  | none =>
    rw [addTag_of_none h]
    have hopen : (g.openTag n ts).tagNode? (.mk n ts) = some g.fresh.1 := by
      rw [tagNode?, openTag, state, state, List.find?_cons_of_pos (by simp)]
      rfl
    have htags : Pieces (fun _ => True) (fun _ => True) (g.openTag n ts)
        ((g.openTag n ts).addTags ts).2 := addTags_pieces _ ts fun _ _ _ _ => trivial
    have hlabel := (stateArguments_pieces htags g.fresh.1).trans
      (stateLabel_pieces _ g.fresh.1 (Tag.text {} (.mk n ts)))
    exact (Pieces.steps hlabel).enters.tagNode? _ _ hopen

/-- A tag keeps its node along several calls. -/
theorem tagNode?_runAll (h : g.tagNode? t = some node) (calls : List Call) :
    (g.runAll calls).tagNode? t = some node := by
  induction calls generalizing g with
  | nil => exact h
  | cons call calls ih => exact ih ((run_steps g call).enters.tagNode? t node h)

/-- A signature keeps its node along several calls. -/
theorem signatureNode?_runAll (h : g.signatureNode? s = some node) (calls : List Call) :
    (g.runAll calls).signatureNode? s = some node := by
  induction calls generalizing g with
  | nil => exact h
  | cons call calls ih => exact ih ((run_steps g call).enters.signatureNode? s node h)

/-! ## Which tags and signatures have nodes -/

/-- A graph whose register is in accord with it, and in which every tag and every
signature that has a node is described by it. -/
structure Shared (g : CoverageGraph) : Prop extends Registered g where
  /-- Everything is described. -/
  complete : Complete g

/-- A node describes one tag at most. -/
theorem HasTag.unique (ht : g.HasTag (fun _ => True) node t) (hu : g.HasTag (fun _ => True) node u) :
    t = u :=
  Except.ok.inj ((HasTag.read ht []).symm.trans (HasTag.read hu []))

/-- A node describes one signature at most. -/
theorem HasSignature.unique {s' : Signature} (hs : g.HasSignature (fun _ => True) node s)
    (hs' : g.HasSignature (fun _ => True) node s') : s = s' :=
  Except.ok.inj ((HasSignature.read hs []).symm.trans (HasSignature.read hs' []))

namespace Shared

/-- Before the first call nothing is registered. -/
theorem start (labels : Bool) : Shared { withLabels := labels } where
  tags := ⟨.nil, fun _ => iff_of_false List.not_mem_nil List.not_mem_nil⟩
  signatures := ⟨.nil, fun _ => iff_of_false List.not_mem_nil List.not_mem_nil⟩
  named _ _ h := absurd h List.not_mem_nil
  complete := complete_start labels

/-- Every call keeps this. -/
theorem run (h : g.Shared) (call : Call) : (g.run call).2.Shared where
  toRegistered := (run_steps g call).registered h.toRegistered
  complete := (run_advances g call).sound h.complete

/-- So do several calls. -/
theorem runAll (h : g.Shared) (calls : List Call) : (g.runAll calls).Shared := by
  induction calls generalizing g with
  | nil => exact h
  | cons call calls ih => exact ih (h.run call)

variable (h : g.Shared)
include h

/-- A node that describes a tag is the node of this tag. -/
theorem mem_tagNodes_of_hasTag (ht : g.HasTag (fun _ => True) node t) : (t, node) ∈ g.tagNodes := by
  obtain ⟨o, ho⟩ : ∃ o, Triple.mk node .name o ∈ g.graph := by
    obtain ⟨n, ts⟩ := t
    simp only [HasTag, Graph.IsTag] at ht
    exact ⟨_, (ht.2.1 _).2 rfl⟩
  obtain ⟨⟨u, _⟩, hentry, rfl⟩ := List.mem_map.1 (h.named node o ho)
  obtain rfl : u = t := HasTag.unique (h.complete.tags _ hentry trivial) ht
  exact hentry

/-- All tags that occur in a tag that a node describes have nodes. -/
theorem parts_of_hasTag : ∀ {node : Node} (t : Tag), g.HasTag (fun _ => True) node t →
    ∀ u ∈ t.parts, u ∈ g.tagKeys
  | node, .mk n ts, ht, u, hu => by
    have hmem := h.mem_tagNodes_of_hasTag ht
    rcases Tag.mem_parts_mk.1 hu with rfl | ⟨t, htmem, hut⟩
    · exact List.mem_map_of_mem hmem
    · simp only [HasTag, Graph.IsTag] at ht
      obtain ⟨-, -, items, -, hitems⟩ := ht
      obtain ⟨item, -, hitem⟩ := exists_mem_of_forall₂ (Graph.areTags_iff.1 hitems) htmem
      exact parts_of_hasTag t hitem u hut
termination_by _ t => sizeOf t

/-- All tags that occur in a type set that a node describes have nodes. -/
theorem parts_of_hasTypeSet {p : TypeSet} (hp : g.HasTypeSet (fun _ => True) node p) :
    ∀ u ∈ TypeSet.parts p, u ∈ g.tagKeys := by
  intro u hu
  obtain ⟨t, ht, hut⟩ := TypeSet.mem_parts.1 hu
  obtain ⟨member, -, hmember⟩ := hp.complete t ht
  exact h.parts_of_hasTag t hmember u hut

/-- All tags that occur in a signature that has a node have nodes. -/
theorem parts_of_mem_signatureKeys (hs : s ∈ g.signatureKeys) : ∀ u ∈ s.parts, u ∈ g.tagKeys := by
  intro u hu
  obtain ⟨p, hp, hup⟩ := Signature.mem_parts.1 hu
  obtain ⟨entry, hentry, rfl⟩ := List.mem_map.1 hs
  obtain ⟨-, items, -, -, -, hsets⟩ := h.complete.signatures entry hentry
  obtain ⟨item, -, hitem⟩ := exists_mem_of_forall₂ hsets hp
  exact h.parts_of_hasTypeSet hitem u hup

omit h in
/-- After a call the signatures that it was given have nodes. -/
theorem signatures_run (g : CoverageGraph) (call : Call) :
    ∀ s ∈ call.signatures, s ∈ (g.run call).2.signatureKeys := by
  cases call with
  | addTag t => exact fun _ hs => absurd hs List.not_mem_nil
  | addTypeSet p => exact fun _ hs => absurd hs List.not_mem_nil
  | addList items => exact fun _ hs => absurd hs List.not_mem_nil
  | addSignature u =>
    intro s hs
    rw [List.mem_singleton.1 hs]
    exact exists_find?_key_iff.1 ⟨_, signatureNode?_addSignature_self g u⟩
  | addCheck interface implementations leaves name =>
    have hnoted := (addRecord_writes g ⟨interface, implementations, leaves, name⟩).2.2
    refine List.forall_mem_cons.2 ⟨exists_find?_key_iff.1 hnoted.interface,
      List.forall_mem_append.2 ⟨fun s hs => ?_, fun s hs => ?_⟩⟩
    · exact exists_find?_key_iff.1 (hnoted.implementations s hs)
    · exact exists_find?_key_iff.1 (hnoted.leaves s hs)

/-- After a call the tags that occur in what it was given have nodes. -/
theorem tags_run (call : Call) : ∀ t ∈ call.tags, t ∈ (g.run call).2.tagKeys := by
  have hrun := h.run call
  have hsignatures : ∀ t ∈ call.signatures.flatMap Signature.parts, t ∈ (g.run call).2.tagKeys := by
    intro t ht
    obtain ⟨s, hs, hts⟩ := List.mem_flatMap.1 ht
    exact hrun.parts_of_mem_signatureKeys (signatures_run g call s hs) t hts
  cases call with
  | addTag t => exact hrun.parts_of_hasTag t (h.complete.toTagSound.addTag t).2
  | addTypeSet p => exact hrun.parts_of_hasTypeSet (h.complete.toTagSound.addTypeSet p).2
  | addList items => exact hsignatures
  | addSignature s => exact hsignatures
  | addCheck interface implementations leaves name => exact hsignatures

/-- The tags that have nodes after several calls are those that had nodes before and
those that occur in what the calls were given. -/
theorem mem_tagKeys_runAll (calls : List Call) :
    t ∈ (g.runAll calls).tagKeys ↔ t ∈ g.tagKeys ∨ t ∈ calls.flatMap Call.tags := by
  induction calls generalizing g with
  | nil => simp [CoverageGraph.runAll]
  | cons call calls ih =>
    have hcall : t ∈ (g.run call).2.tagKeys ↔ t ∈ g.tagKeys ∨ t ∈ call.tags :=
      ⟨(run_steps g call).enters.tagKeys t,
        Or.rec (run_steps g call).enters.mem_tagKeys (h.tags_run call t)⟩
    rw [List.flatMap_cons, List.mem_append, ← or_assoc, ← hcall]
    exact ih (h.run call)

omit h in
/-- The signatures that have nodes after several calls are those that had nodes
before and those that the calls were given. -/
theorem mem_signatureKeys_runAll (calls : List Call) :
    s ∈ (g.runAll calls).signatureKeys ↔
      s ∈ g.signatureKeys ∨ s ∈ calls.flatMap Call.signatures := by
  induction calls generalizing g with
  | nil => simp [CoverageGraph.runAll]
  | cons call calls ih =>
    have hcall : s ∈ (g.run call).2.signatureKeys ↔ s ∈ g.signatureKeys ∨ s ∈ call.signatures :=
      ⟨(run_steps g call).enters.signatureKeys s,
        Or.rec (run_steps g call).enters.mem_signatureKeys (signatures_run g call s)⟩
    rw [List.flatMap_cons, List.mem_append, ← or_assoc, ← hcall]
    exact ih

/-- There are as many nodes of tags as tags that have nodes. -/
theorem card_tagNodes {ts : List Tag} (hts : ∀ t, t ∈ g.tagKeys ↔ t ∈ ts) :
    (g.graph.subjects (some .type) (some .tagClass)).toFinset.card = ts.toFinset.card := by
  refine h.tags.card_subjects (fun e he e' he' heq => ?_) hts
  have hdescribed := h.complete.tags e he trivial
  rw [heq] at hdescribed
  exact HasTag.unique hdescribed (h.complete.tags e' he' trivial)

/-- There are as many nodes of signatures as signatures that have nodes. -/
theorem card_signatureNodes {ss : List Signature} (hss : ∀ s, s ∈ g.signatureKeys ↔ s ∈ ss) :
    (g.graph.subjects (some .type) (some .signatureClass)).toFinset.card = ss.toFinset.card := by
  refine h.signatures.card_subjects (fun e he e' he' heq => ?_) hss
  have hdescribed := h.complete.signatures e he
  rw [heq] at hdescribed
  exact HasSignature.unique hdescribed (h.complete.signatures e' he')

/-- Two tags that are written, with any calls between them, get the same node if and
only if they are equal. -/
theorem addTag_eq_iff (t u : Tag) (between : List Call) :
    (g.addTag t).1 = (((g.addTag t).2.runAll between).addTag u).1 ↔ t = u := by
  constructor
  · intro heq
    have hfirst : (((g.addTag t).2.runAll between).addTag u).2.HasTag (fun _ => True)
        (g.addTag t).1 t :=
      (addTag_keeps _ _ u).hasTag
        ((runAll_advances _ between).keeps.hasTag (h.complete.toTagSound.addTag t).2)
    have hbetween := (h.run (.addTag t)).runAll between
    rw [heq] at hfirst
    exact HasTag.unique hfirst (hbetween.complete.toTagSound.addTag u).2
  · rintro rfl
    rw [addTag_of_some (tagNode?_runAll (tagNode?_addTag_self g t) between)]

/-- Two signatures that are written, with any calls between them, get the same node
if and only if they are equal. -/
theorem addSignature_eq_iff (s u : Signature) (between : List Call) :
    (g.addSignature s).1 = (((g.addSignature s).2.runAll between).addSignature u).1 ↔ s = u := by
  constructor
  · intro heq
    have hfirst : (((g.addSignature s).2.runAll between).addSignature u).2.HasSignature
        (fun _ => True) (g.addSignature s).1 s :=
      (addSignature_keeps _ u).hasSignature
        ((runAll_advances _ between).keeps.hasSignature (h.complete.addSignature s).2)
    have hbetween := (h.run (.addSignature s)).runAll between
    rw [heq] at hfirst
    exact HasSignature.unique hfirst (hbetween.complete.addSignature u).2
  · rintro rfl
    rw [addSignature_of_some (signatureNode?_runAll (signatureNode?_addSignature_self g s) between)]

end Shared

/-- Nodes are shared exactly. After any calls, with or without labels, a tag that is
written gets the node of another one, written before it with any calls between them,
if and only if the two are equal, and likewise for signatures. There are as many
nodes of tags as different tags occur in what was written, and as many nodes of
signatures as different signatures were written. Writing one of these tags or
signatures again changes nothing. -/
theorem sharing_exact (labels : Bool) (calls : List Call) :
    let g := runAll { withLabels := labels } calls
    (∀ t u between,
      (g.addTag t).1 = (((g.addTag t).2.runAll between).addTag u).1 ↔ t = u) ∧
    (∀ s u between,
      (g.addSignature s).1 = (((g.addSignature s).2.runAll between).addSignature u).1 ↔ s = u) ∧
    (g.graph.subjects (some .type) (some .tagClass)).toFinset.card =
      (calls.flatMap Call.tags).toFinset.card ∧
    (g.graph.subjects (some .type) (some .signatureClass)).toFinset.card =
      (calls.flatMap Call.signatures).toFinset.card ∧
    (∀ t ∈ calls.flatMap Call.tags, (g.addTag t).2 = g) ∧
    ∀ s ∈ calls.flatMap Call.signatures, (g.addSignature s).2 = g := by
  intro g
  have hstart := Shared.start labels
  have hg : g.Shared := hstart.runAll calls
  have htags : ∀ t, t ∈ g.tagKeys ↔ t ∈ calls.flatMap Call.tags := fun t =>
    (hstart.mem_tagKeys_runAll calls).trans (or_iff_right List.not_mem_nil)
  have hsignatures : ∀ s, s ∈ g.signatureKeys ↔ s ∈ calls.flatMap Call.signatures := fun s =>
    (Shared.mem_signatureKeys_runAll calls).trans (or_iff_right List.not_mem_nil)
  refine ⟨hg.addTag_eq_iff, hg.addSignature_eq_iff, hg.card_tagNodes htags,
    hg.card_signatureNodes hsignatures, fun t ht => ?_, fun s hs => ?_⟩
  · obtain ⟨node, hnode⟩ := exists_find?_key_iff.2 ((htags t).2 ht)
    rw [addTag_of_some hnode]
  · obtain ⟨node, hnode⟩ := exists_find?_key_iff.2 ((hsignatures s).2 hs)
    rw [addSignature_of_some hnode]

/-- The tag of integers. -/
def intTag : Tag := .atom ⟨"Integer", by decide⟩

/-- The tag of lists of integers. -/
def intsTag : Tag := .mk ⟨"Sequence", by decide⟩ [intTag]

/-- The signature of two parameters that take integers and lists of them. -/
def intsSignature : Signature := ⟨[.ofList [intTag, intsTag], .ofList [intsTag]]⟩

/-- A list tag, and then a check of a signature that it occurs in. -/
def intsCalls : List Call :=
  [.addTag intsTag, .addCheck intsSignature [] [intsSignature] none]

/-- The tag of integers was written inside the list tag, so that there are two nodes
of tags and writing it again changes nothing; the signature was written twice, and
has one node. -/
theorem sharing_exact_ints :
    let g := runAll { withLabels := false } intsCalls
    intTag ∈ intsCalls.flatMap Call.tags ∧ (g.addTag intTag).2 = g ∧
      (g.graph.subjects (some .type) (some .tagClass)).toFinset.card = 2 ∧
      intsSignature ∈ intsCalls.flatMap Call.signatures ∧ (g.addSignature intsSignature).2 = g ∧
      (g.graph.subjects (some .type) (some .signatureClass)).toFinset.card = 1 := by
  intro g
  have hint : intTag ∈ intsCalls.flatMap Call.tags := by decide
  have hsignature : intsSignature ∈ intsCalls.flatMap Call.signatures := by decide
  obtain ⟨-, -, htags, hsignatures, hagain, hagain'⟩ := sharing_exact false intsCalls
  exact ⟨hint, hagain intTag hint, htags.trans (by decide), hsignature, hagain' _ hsignature,
    hsignatures.trans (by decide)⟩

end CoverageGraph

end DispatchCoverage

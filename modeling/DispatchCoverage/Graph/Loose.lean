import DispatchCoverage.Graph.Coverage
import DispatchCoverage.Value.Operators

/-!
# Loosely typed coverage graphs

A coverage graph may be given values of any kind for its tags, sets and
signatures. A value that does not suit is noticed when its turn comes, and what
was written before stays in the graph. A key that is no tag or no signature
keeps the node that it was given, so that it counts as written from then on.
Tags, sets, signatures and checks of signatures are written as they are, without
an error.
-/

namespace DispatchCoverage

/-- Why something could not be written to a graph. -/
inductive WriteError where
  /-- A value cannot be listed, or cannot be a key. -/
  | unsuitable
  /-- A value is no tag or no signature. -/
  | noOperation
  /-- What has to be a node is none. -/
  | notANode

/-- A coverage graph that values of any kind are written to. -/
structure LooseCoverage where
  /-- The graph that is being written. -/
  coverage : CoverageGraph := {}
  /-- The nodes of the keys that were written as tags, but are none. -/
  tagNodes : List (Value × Node) := []
  /-- The nodes of the keys that were written as signatures, but are none. -/
  signatureNodes : List (Value × Node) := []

namespace LooseCoverage

/-- Writing to a graph. An error does not undo what was written before it. -/
abbrev Writing := ExceptT WriteError (StateM LooseCoverage)

/-- A step that succeeds hands on its value and its graph. -/
theorem run_bind_ok {α β : Type} {x : Writing α} {f : α → Writing β} {g g' : LooseCoverage} {a : α}
    (h : x.run.run g = (.ok a, g')) : (x >>= f).run.run g = (f a).run.run g' := by
  rw [ExceptT.run_bind, StateT.run_bind, h]
  rfl

/-- Write to the graph. -/
def write {α : Type} (f : CoverageGraph → α × CoverageGraph) : Writing α :=
  modifyGet fun g =>
    let (result, coverage) := f g.coverage
    (result, { g with coverage })

/-- State a property of a node. -/
def state (subject predicate object : Node) : Writing Unit :=
  write fun g => ((), g.state subject predicate object)

/-- State a property where every part has to be a node. -/
def stateNodes : Option Node → Option Node → Option Node → Writing Unit
  | some subject, some predicate, some object => state subject predicate object
  | _, _, _ => throw .notANode

/-- Write a list of what has to be nodes. -/
def addList : List (Option Node) → Writing Node
  | [] => return .nil
  | none :: _ => throw .notANode
  | some item :: items => do
    let node ← write CoverageGraph.fresh
    state node .first item
    let rest ← addList items
    state node .rest rest
    return node

/-- A list of nodes is written as it is. -/
theorem run_addList_some (g : LooseCoverage) (items : List Node) :
    (addList (items.map some)).run.run g =
      (.ok (g.coverage.addList items).1, { g with coverage := (g.coverage.addList items).2 }) := by
  induction items generalizing g with
  | nil => rfl
  | cons item items ih =>
    let coverage := g.coverage.fresh.2.state g.coverage.fresh.1 .first item
    have opened : (addList ((item :: items).map some)).run.run g =
        (addList (items.map some) >>= fun rest => do
          state g.coverage.fresh.1 .rest rest
          return g.coverage.fresh.1).run.run { g with coverage } := rfl
    rw [opened, run_bind_ok (ih { g with coverage })]
    rfl

/-- What a single node gives as a list: the characters of its address, label or
text, none of which is a node. -/
def characters (node : Node) : List (Option Node) := node.nameText.toList.map fun _ => none

/-- The values that a value holds. -/
def listed (v : Value) : Writing (List Value) :=
  match v.items? with
  | some vs => return vs
  | none => throw .unsuitable

/-- The node that a key has among some. -/
def node? (nodes : List (Value × Node)) (key : Value) : Option Node :=
  (nodes.find? (fun entry => entry.1.equals key)).map Prod.snd

/-- Write a value as a tag. -/
def addTag : Value → Writing Node
  | .tag t => write fun g => g.addTag t
  | v => do
    if !v.isKey then throw .unsuitable
    match node? (← get).tagNodes v with
    | some node => return node
    | none =>
      let node ← write CoverageGraph.fresh
      modify fun g => { g with tagNodes := (v, node) :: g.tagNodes }
      state node .type .tagClass
      throw .noOperation

/-- A tag is written as it is. -/
theorem run_addTag_tag (g : LooseCoverage) (t : Tag) :
    (addTag (.tag t)).run.run g =
      (.ok (g.coverage.addTag t).1, { g with coverage := (g.coverage.addTag t).2 }) := rfl

/-- Write a value as a type set. -/
def addTypeSet : Value → Writing Node
  | .set s => write fun g => g.addTypeSet s
  | v => do
    let node ← write CoverageGraph.fresh
    state node .type .typeSetClass
    for item in ← listed v do
      state node .member (← addTag item)
    return node

/-- A type set is written as it is. -/
theorem run_addTypeSet_set (g : LooseCoverage) (s : TypeSet) :
    (addTypeSet (.set s)).run.run g =
      (.ok (g.coverage.addTypeSet s).1, { g with coverage := (g.coverage.addTypeSet s).2 }) := rfl

/-- Label a value that was written as a signature. Apart from signatures, only
sets have a written form. -/
def label (node : Node) : Value → Writing Unit
  | .set s => write fun g => ((), g.stateLabel node (TypeSet.text {} s))
  | _ => do if (← get).coverage.withLabels then throw .noOperation

/-- Write a value as a signature. -/
def addSignature : Value → Writing Node
  | .signature s => write fun g => g.addSignature s
  | v => do
    if !v.isKey then throw .unsuitable
    match node? (← get).signatureNodes v with
    | some node => return node
    | none =>
      let node ← write CoverageGraph.fresh
      modify fun g => { g with signatureNodes := (v, node) :: g.signatureNodes }
      state node .type .signatureClass
      let sets ← (← listed v).mapM addTypeSet
      let list ← write fun g => g.addList sets
      state node .parameters list
      label node v
      return node

/-- A signature is written as it is. -/
theorem run_addSignature_signature (g : LooseCoverage) (s : Signature) :
    (addSignature (.signature s)).run.run g =
      (.ok (g.coverage.addSignature s).1, { g with coverage := (g.coverage.addSignature s).2 }) :=
  rfl

/-- Write several values as signatures that are values of a property, in
order. -/
def addSignatures (subject predicate : Node) (vs : List Value) : Writing Unit :=
  for v in vs do
    state subject predicate (← addSignature v)

/-- Several signatures are written as they are. -/
theorem run_addSignatures_signatures (g : LooseCoverage) (subject predicate : Node)
    (ss : List Signature) :
    (addSignatures subject predicate (ss.map .signature)).run.run g =
      (.ok (), { g with coverage := g.coverage.addSignatures subject predicate ss }) := by
  induction ss generalizing g with
  | nil => rfl
  | cons s ss ih =>
    rw [addSignatures, List.map_cons, List.forIn_cons]
    simp only [bind_assoc]
    rw [run_bind_ok (run_addSignature_signature g s)]
    exact ih _

/-- The literal that a value stands for. -/
def literalOf : Value → Literal
  | .bool b => .truth b
  | .int i => .integer i
  | v => .text v.toText

/-- The name that the address of a check ends in. -/
def addressName : Value → String
  | .str s => s
  | _ => ""

/-- The node of a check: a resource with an address if there is a name. -/
def openCheck (name : Value) : Writing Node :=
  if name.truth then pure (Node.iri (Namespaces.ex ++ addressName name))
  else write CoverageGraph.fresh

/-- State the parts of a check about its node. -/
def stateCheck (root : Node) (interface implementations : Value) (leaves : List Value) :
    Writing Unit := do
  state root .type .checkClass
  state root .interface (← addSignature interface)
  addSignatures root .implementation (← listed implementations)
  addSignatures root .leaf leaves
  state root .complete (.literal (.truth leaves.isEmpty))

/-- Label a check with its name, if there is one. -/
def labelCheck (root : Node) (name : Value) : Writing Unit := do
  if name.truth && (← get).coverage.withLabels then
    state root .label (.literal (literalOf name))

/-- Write the outcome of a check. The leaves are listed before anything is
written. -/
def addCheck (interface implementations leaves : Value) (name : Value := .none) : Writing Node := do
  let root ← openCheck name
  let leaves ← listed leaves
  stateCheck root interface implementations leaves
  labelCheck root name
  return root

/-- The value of a name that may be left out. -/
def nameValue : Option String → Value
  | none => .none
  | some text => .str text

/-- The value of a name is its text. -/
theorem nameValue_of_some {text : Option String} {n : Name}
    (h : text.bind Name.ofString? = some n) : nameValue text = .str n.text := by
  obtain ⟨s, rfl, hs⟩ := Option.bind_eq_some_iff.1 h
  rw [Name.ofString?_eq_some_iff.1 hs]
  rfl

/-- The text of a name counts as a name. -/
theorem truth_name (n : Name) : (Value.str n.text).truth = true := bne_iff_ne.2 n.nonempty

/-- A text that is no name counts as none. -/
theorem truth_nameValue_of_none {text : Option String} (h : text.bind Name.ofString? = none) :
    (nameValue text).truth = false := by
  cases text with
  | none => rfl
  | some s =>
    rw [Option.bind_some, Name.ofString?] at h
    split at h
    · rename_i hempty
      rw [hempty]
      rfl
    · cases h

/-- A check with a name is labelled with it, if labels are wanted. -/
theorem run_labelCheck_name (g : LooseCoverage) (root : Node) (n : Name) :
    (labelCheck root (.str n.text)).run.run g =
      (.ok (), { g with coverage := g.coverage.stateLabel root n.text }) := by
  have hasked : (labelCheck root (.str n.text)).run.run g =
      (if g.coverage.withLabels then state root .label (.literal (literalOf (.str n.text)))
        else pure ()).run.run g := by
    rw [labelCheck, truth_name]
    rfl
  rw [hasked, CoverageGraph.stateLabel]
  split <;> rfl

section Signatures

variable {values : Value} {ss : List Signature}

/-- What holds signatures is listed without a change. -/
theorem run_listed_signatures (h : values.items? = some (ss.map .signature)) (g : LooseCoverage) :
    (listed values).run.run g = (.ok (ss.map .signature), g) := by
  rw [listed, h]
  rfl

/-- The parts of a check of signatures are stated as they are. -/
theorem run_stateCheck_signatures (h : values.items? = some (ss.map .signature))
    (g : LooseCoverage) (root : Node) (interface : Signature) (leaves : List Signature) :
    (stateCheck root (.signature interface) values (leaves.map .signature)).run.run g =
      let typed := (g.coverage.state root .type .checkClass).addSignature interface
      let considered := (typed.2.state root .interface typed.1).addSignatures root .implementation ss
      (.ok (), { g with
        coverage := (considered.addSignatures root .leaf leaves).state root .complete
          (.literal (.truth leaves.isEmpty)) }) := by
  let typed := (g.coverage.state root .type .checkClass).addSignature interface
  let noted : LooseCoverage := { g with coverage := typed.2.state root .interface typed.1 }
  have opened : (stateCheck root (.signature interface) values (leaves.map .signature)).run.run g =
      (listed values >>= fun vs => do
        addSignatures root .implementation vs
        addSignatures root .leaf (leaves.map .signature)
        state root .complete (.literal (.truth (leaves.map Value.signature).isEmpty))).run.run
      noted := rfl
  rw [opened, run_bind_ok (run_listed_signatures h _),
    run_bind_ok (run_addSignatures_signatures _ _ _ ss),
    run_bind_ok (run_addSignatures_signatures _ _ _ leaves), List.isEmpty_map]
  rfl

/-- A check of signatures is written as it is, with its name if there is
one. -/
theorem run_addCheck_signatures {others : Value} {leaves : List Signature}
    (hvalues : values.items? = some (ss.map .signature))
    (hothers : others.items? = some (leaves.map .signature)) (g : LooseCoverage)
    (interface : Signature) (text : Option String) :
    (addCheck (.signature interface) values others (nameValue text)).run.run g =
      (.ok (g.coverage.addCheck interface ss leaves (text.bind Name.ofString?)).1,
        { g with
          coverage := (g.coverage.addCheck interface ss leaves (text.bind Name.ofString?)).2 }) := by
  cases hname : text.bind Name.ofString? with
  | none =>
    have hopened : (openCheck (nameValue text)).run.run g =
        (.ok g.coverage.fresh.1, { g with coverage := g.coverage.fresh.2 }) := by
      rw [openCheck, truth_nameValue_of_none hname]
      rfl
    rw [addCheck, run_bind_ok hopened, run_bind_ok (run_listed_signatures hothers _),
      run_bind_ok (run_stateCheck_signatures hvalues _ _ interface leaves), labelCheck,
      truth_nameValue_of_none hname]
    rfl
  | some n =>
    have hopened : (openCheck (.str n.text)).run.run g = (.ok (Node.check n), g) := by
      rw [openCheck, truth_name]
      rfl
    rw [nameValue_of_some hname, addCheck, run_bind_ok hopened,
      run_bind_ok (run_listed_signatures hothers _),
      run_bind_ok (run_stateCheck_signatures hvalues _ _ interface leaves),
      run_bind_ok (run_labelCheck_name _ _ n)]
    rfl

end Signatures

end LooseCoverage

end DispatchCoverage

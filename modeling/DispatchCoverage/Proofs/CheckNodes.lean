import DispatchCoverage.Command.Check
import DispatchCoverage.Proofs.CheckStatements

/-!
# The nodes of checks

A node of a check carries exactly the statements of the outcomes that were
written at it. An unnamed check gets a node of its own. A named check gets a
node made from its name alone, so that checks of one name share a node, whose
statements are then those of all of them. Exactly when no name is used twice, each
check has a node that describes this check and no other.
-/

namespace DispatchCoverage

namespace Graph

variable {g : Graph} {s p o : Node}

/-- The only value of a property is the only one listed. -/
theorem objects_of_hasOnly (h : g.HasOnly s p o) : g.objects (some s) (some p) = [o] :=
  List.perm_singleton.1 <|
    (List.perm_ext_iff_of_nodup (g.nodup_objects s p) (List.nodup_singleton o)).2 fun o' => by
      rw [mem_objects, h o', List.mem_singleton]

/-- A node is read as the outcome of one check: it has the interface of the check,
its implementations, its leaves, and one statement on completeness. -/
structure ReadsAsCheck (g : Graph) (node : Node) (r : CheckRecord) : Prop where
  /-- There is one interface, which is read as that of the check. -/
  interface : ∃ o, g.objects (some node) (some .interface) = [o] ∧
    g.signature (some o) = .ok r.interface
  /-- The implementations are read as those of the check. -/
  implementations : ∃ read, (g.objects (some node) (some .implementation)).mapM
      (fun o => g.signature (some o)) = .ok read ∧ ∀ s, s ∈ read ↔ s ∈ r.implementations
  /-- The leaves are read as those of the check. -/
  leaves : ∃ read, g.leaves (some node) = .ok read ∧ ∀ s, s ∈ read ↔ s ∈ r.leaves
  /-- The check is stated to be complete if it has no leaves, and otherwise not to be. -/
  complete : g.objects (some node) (some .complete) = [.literal (.truth r.leaves.isEmpty)]

end Graph

namespace CoverageGraph

variable {g g' : CoverageGraph} {node root s p o : Node} {r : CheckRecord}
  {rs : List CheckRecord} {history : List (Node × CheckRecord)}

/-! ## Several checks -/

/-- A node states what the outcomes of some checks state, and nothing else. -/
structure Carries (g : CoverageGraph) (node : Node) (rs : List CheckRecord) : Prop where
  /-- The signatures of the checks have nodes. -/
  noted : ∀ r ∈ rs, g.Noted r
  /-- The triples about the node are the statements of the checks. -/
  states : ∀ p o, Triple.mk node p o ∈ g.graph ↔ ∃ r ∈ rs, g.States r p o

namespace Carries

variable {said : Node → Node → Prop}

/-- Nothing changes for a node when something is said about another one. -/
theorem of_ne (h : g.Carries node rs) (hwrites : Writes root said g g') (hnode : g.IsRoot node)
    (hne : node ≠ root) : g'.Carries node rs where
  noted r hr := hwrites.noted_record (h.noted r hr)
  states p o := by
    rw [hwrites.about node hnode, h.states, or_iff_left fun hsaid => hne hsaid.1]
    exact exists_congr fun r => and_congr_right fun hr => (hwrites.states_iff (h.noted r hr)).symm

/-- One more outcome joins those that a node carries. -/
theorem append (h : g.Carries root rs) (hwrites : Writes root (g'.States r) g g')
    (hr : g'.Noted r) (hroot : g.IsRoot root) : g'.Carries root (rs ++ [r]) where
  noted u hu := by
    rcases List.mem_append.1 hu with hold | hnew
    · exact hwrites.noted_record (h.noted u hold)
    · rw [List.mem_singleton.1 hnew]
      exact hr
  states p o := by
    have hold : (∃ u ∈ rs, g'.States u p o) ↔ ∃ u ∈ rs, g.States u p o :=
      exists_congr fun u => and_congr_right fun hu => hwrites.states_iff (h.noted u hu)
    rw [hwrites.about root hroot, h.states, ← hold]
    simp only [true_and, List.mem_append, List.mem_singleton, or_and_right, exists_or,
      exists_eq_left]

end Carries

/-- Write several outcomes, in order. -/
def addRecords (g : CoverageGraph) : List CheckRecord → List Node × CoverageGraph
  | [] => ([], g)
  | r :: rs =>
    let (node, g) := g.addRecord r
    let (nodes, g) := addRecords g rs
    (node :: nodes, g)

/-- The outcomes that were written at a node. -/
def recordsAt (history : List (Node × CheckRecord)) (node : Node) : List CheckRecord :=
  (history.filter fun entry => entry.1 = node).map Prod.snd

/-- Nothing was written at a node that no check has. -/
theorem recordsAt_eq_nil (h : ∀ entry ∈ history, entry.1 ≠ node) : recordsAt history node = [] := by
  rw [recordsAt, List.filter_eq_nil_iff.2 fun entry hentry => by simpa using h entry hentry]
  rfl

/-- The outcomes at a node are those written there first and those written there
later. -/
theorem recordsAt_append (first later : List (Node × CheckRecord)) (node : Node) :
    recordsAt (first ++ later) node = recordsAt first node ++ recordsAt later node := by
  rw [recordsAt, List.filter_append, List.map_append]
  rfl

/-- A graph in which some checks were written at some nodes. -/
structure Recorded (g : CoverageGraph) (history : List (Node × CheckRecord)) : Prop where
  /-- All tags and signatures that have nodes are described by them. -/
  sound : Complete g
  /-- A named check is at the node of its name, another one at a blank node. -/
  made : ∀ entry ∈ history, (∃ n, entry.2.name = some n ∧ entry.1 = .check n) ∨
    entry.2.name = none ∧ g.Known entry.1
  /-- Every node made from a name and every node of a check carries the outcomes
  that were written at it. -/
  carries : ∀ node, ((∃ n, node = .check n) ∨ ∃ entry ∈ history, entry.1 = node) →
    g.Carries node (recordsAt history node)
  /-- The checks of the graph are those that were written. -/
  checks : ∀ s, Triple.mk s .type .checkClass ∈ g.graph ↔ ∃ entry ∈ history, entry.1 = s
  /-- Only checks of one name share a node. -/
  apart : history.Pairwise fun entry entry' => entry.1 = entry'.1 →
    ∃ n, entry.2.name = some n ∧ entry'.2.name = some n

/-- The node of a name determines the name. -/
theorem check_injective {m n : Name} (h : Node.check m = Node.check n) : m = n :=
  Name.text_injective ((String.append_right_inj Namespaces.ex).1 (Node.iri.inj h))

namespace Recorded

/-- Before the first check nothing is written. -/
theorem start (labels : Bool) : Recorded { withLabels := labels } [] where
  sound := complete_start labels
  made _ h := absurd h List.not_mem_nil
  carries _ _ := ⟨fun _ h => absurd h List.not_mem_nil, fun _ _ =>
    ⟨fun h => absurd h List.not_mem_nil, fun ⟨_, h, _⟩ => absurd h List.not_mem_nil⟩⟩
  checks _ := ⟨fun h => absurd h List.not_mem_nil, fun ⟨_, h, _⟩ => absurd h List.not_mem_nil⟩
  apart := .nil

variable (h : Recorded g history)
include h

/-- The nodes of checks are nodes that a check can have. -/
theorem isRoot {entry : Node × CheckRecord} (hentry : entry ∈ history) : g.IsRoot entry.1 := by
  rcases h.made entry hentry with ⟨n, _, hnode⟩ | ⟨_, hknown⟩
  · exact .inl ⟨n, hnode⟩
  · exact .inr hknown

/-- No check has the next node to be made. -/
theorem ne_fresh : ∀ entry ∈ history, entry.1 ≠ g.fresh.1 := by
  intro entry hentry
  rcases h.made entry hentry with ⟨n, _, hnode⟩ | ⟨_, hknown⟩
  · rw [hnode]
    exact Node.noConfusion
  · exact hknown.ne_fresh g.next (Nat.le_refl _)

/-- The node of another check carries what was written there before. -/
theorem carries_openCheck (name : Option Name) :
    (g.openCheck name).2.Carries (g.openCheck name).1
      (recordsAt history (g.openCheck name).1) := by
  cases name with
  | some n => exact h.carries (.check n) (.inl ⟨n, rfl⟩)
  | none =>
    have hnil : recordsAt history g.fresh.1 = [] := recordsAt_eq_nil h.ne_fresh
    show g.fresh.2.Carries g.fresh.1 (recordsAt history g.fresh.1)
    rw [hnil]
    refine ⟨fun _ hr => absurd hr List.not_mem_nil, fun p o => ⟨fun ho => ?_, ?_⟩⟩
    · exact absurd ho (h.sound.fresh_unstated p o)
    · rintro ⟨_, hr, _⟩
      exact absurd hr List.not_mem_nil

/-- Another check shares a node only with checks of its name. -/
theorem apart_openCheck {name : Option Name} {entry : Node × CheckRecord} (hentry : entry ∈ history)
    (heq : entry.1 = (g.openCheck name).1) : ∃ n, entry.2.name = some n ∧ name = some n := by
  cases name with
  | none => exact absurd heq (h.ne_fresh entry hentry)
  | some n =>
    rcases h.made entry hentry with ⟨m, hm, hnode⟩ | ⟨_, hknown⟩
    · rw [hnode] at heq
      exact ⟨m, hm, congrArg some (check_injective heq).symm⟩
    · rw [heq] at hknown
      exact absurd hknown (g.not_known_check n)

/-- The nodes of checks go on carrying what was written there, and the node of
another check carries that check as well. -/
theorem carries_addRecord (r : CheckRecord)
    (hnode : (∃ n, node = .check n) ∨
      ∃ entry ∈ history ++ [((g.addRecord r).1, r)], entry.1 = node) :
    (g.addRecord r).2.Carries node (recordsAt (history ++ [((g.addRecord r).1, r)]) node) := by
  obtain ⟨hroot, hwrites, hnoted⟩ := addRecord_writes g r
  rw [recordsAt_append]
  by_cases heq : node = (g.addRecord r).1
  · have hlast : recordsAt [((g.addRecord r).1, r)] node = [r] := by simp [recordsAt, heq]
    have hold := h.carries_openCheck r.name
    have hopen := g.isRoot_openCheck r.name
    rw [hlast, heq]
    rw [← hroot] at hold hopen
    exact hold.append hwrites hnoted hopen
  · have hlast : recordsAt [((g.addRecord r).1, r)] node = [] :=
      recordsAt_eq_nil fun entry hentry => by
        rw [List.mem_singleton.1 hentry]
        exact Ne.symm heq
    have hearlier : (∃ n, node = .check n) ∨ ∃ entry ∈ history, entry.1 = node := by
      refine hnode.imp_right fun hentry => ?_
      obtain ⟨entry, hentry, hsame⟩ := hentry
      rcases List.mem_append.1 hentry with hentry | hentry
      · exact ⟨entry, hentry, hsame⟩
      · rw [List.mem_singleton.1 hentry] at hsame
        exact absurd hsame.symm heq
    have hisRoot : g.IsRoot node := by
      rcases hearlier with hname | ⟨entry, hentry, rfl⟩
      · exact .inl hname
      · exact h.isRoot hentry
    rw [hlast, List.append_nil]
    exact (h.carries node hearlier).of_ne
      ((openCheck_writes g (g.addRecord r).1 r.name).trans hwrites) hisRoot heq

/-- Writing one more check. -/
theorem addRecord (r : CheckRecord) :
    Recorded (g.addRecord r).2 (history ++ [((g.addRecord r).1, r)]) := by
  obtain ⟨hroot, hwrites, -⟩ := addRecord_writes g r
  have hadvances : Advances (fun _ => True) g (g.addRecord r).2 :=
    addCheck_advances g r.interface r.implementations r.leaves r.name
  have hgraph : (g.openCheck r.name).2.graph = g.graph := by cases r.name <;> rfl
  refine ⟨hadvances.sound h.sound, fun entry hentry => ?_, fun node => h.carries_addRecord r,
    fun s => ⟨fun hs => ?_, ?_⟩, ?_⟩
  · rcases List.mem_append.1 hentry with hold | hnew
    · exact (h.made entry hold).imp_right (And.imp_right hadvances.keeps.known)
    · rw [List.mem_singleton.1 hnew]
      cases hname : r.name with
      | some n => exact .inl ⟨n, rfl, by rw [hroot, hname]; rfl⟩
      | none =>
        rw [hname] at hroot hwrites
        refine .inr ⟨rfl, ?_⟩
        show (g.addRecord r).2.Known (g.addRecord r).1
        rw [hroot]
        exact hwrites.known _ g.known_fresh
  · rcases hwrites.checks s hs with hold | rfl
    · rw [hgraph] at hold
      obtain ⟨entry, hentry, hnode⟩ := (h.checks s).1 hold
      exact ⟨entry, List.mem_append_left _ hentry, hnode⟩
    · exact ⟨_, List.mem_append_right _ (List.mem_singleton_self _), rfl⟩
  · rintro ⟨entry, hentry, rfl⟩
    rcases List.mem_append.1 hentry with hold | hnew
    · exact hadvances.keeps.stated _ ((h.checks _).2 ⟨entry, hold, rfl⟩)
    · rw [List.mem_singleton.1 hnew]
      have hopen := g.isRoot_openCheck r.name
      rw [← hroot] at hopen
      exact (hwrites.about _ hopen _ _).2 (.inr ⟨rfl, .inl (.inl ⟨rfl, rfl⟩)⟩)
  · refine List.pairwise_append.2 ⟨h.apart, List.pairwise_singleton _ _,
      fun entry hentry last hlast heq => ?_⟩
    rw [List.mem_singleton.1 hlast] at heq ⊢
    exact h.apart_openCheck hentry (heq.trans hroot)

/-- Writing several more checks. -/
theorem addRecords (rs : List CheckRecord) :
    Recorded (g.addRecords rs).2 (history ++ (g.addRecords rs).1.zip rs) := by
  induction rs generalizing g history with
  | nil =>
    show Recorded g (history ++ [])
    rw [List.append_nil]
    exact h
  | cons r rs ih =>
    have hrest := ih (h.addRecord r)
    rw [List.append_assoc] at hrest
    exact hrest

end Recorded

/-- Each outcome that is written gets a node. -/
theorem length_addRecords (g : CoverageGraph) (rs : List CheckRecord) :
    (g.addRecords rs).1.length = rs.length := by
  induction rs generalizing g with
  | nil => rfl
  | cons r rs ih => exact congrArg Nat.succ (ih (g.addRecord r).2)

/-! ## Checks are read back -/

/-- A signature is read from the node that it has. -/
theorem Complete.signature {s : Signature} (hg : Complete g) (h : g.signatureNode? s = some o) :
    g.graph.signature (some o) = .ok s :=
  (hg.signatures _ (mem_of_find?_key h)).signature fun _ hs => hs.2.isFalsy

/-- Signatures that are the values of a property are read from its values. -/
theorem Complete.exists_mapM_signature {ss : List Signature} (hg : Complete g)
    (hnoted : ∀ s ∈ ss, ∃ o, g.signatureNode? s = some o)
    (hstates : ∀ o, Triple.mk node p o ∈ g.graph ↔ ∃ s ∈ ss, g.signatureNode? s = some o) :
    ∃ read, (g.graph.objects (some node) (some p)).mapM (fun o => g.graph.signature (some o)) =
      .ok read ∧ ∀ s, s ∈ read ↔ s ∈ ss := by
  have hread : ∀ o ∈ g.graph.objects (some node) (some p),
      ∃ s ∈ ss, g.graph.signature (some o) = .ok s := by
    intro o ho
    obtain ⟨s, hs, hnode⟩ := (hstates o).1 (Graph.mem_objects.1 ho)
    exact ⟨s, hs, hg.signature hnode⟩
  obtain ⟨read, hmapM, hmem⟩ := exists_mapM fun o ho => (hread o ho).imp fun _ h => h.2
  refine ⟨read, hmapM, fun s => (hmem s).trans ⟨fun h => ?_, fun hs => ?_⟩⟩
  · obtain ⟨o, ho, hs⟩ := h
    obtain ⟨t, ht, hsame⟩ := hread o ho
    rw [hs] at hsame
    cases hsame
    exact ht
  · obtain ⟨o, ho⟩ := hnoted s hs
    exact ⟨o, Graph.mem_objects.2 ((hstates o).2 ⟨s, hs, ho⟩), hg.signature ho⟩

/-- A node that carries one check is read as that check. -/
theorem Carries.readsAsCheck (hg : Complete g) (h : g.Carries node [r]) :
    g.graph.ReadsAsCheck node r := by
  have hr : g.Noted r := h.noted r (List.mem_singleton_self r)
  have hstates : ∀ p o, Triple.mk node p o ∈ g.graph ↔ g.States r p o :=
    fun p o => (h.states p o).trans (by simp)
  have hinterface : ∀ o, Triple.mk node .interface o ∈ g.graph ↔
      g.signatureNode? r.interface = some o :=
    fun o => (hstates _ o).trans (by simp +decide [States, StatesOutcome])
  have hcomplete : g.graph.HasOnly node .complete (.literal (.truth r.leaves.isEmpty)) :=
    fun o => (hstates _ o).trans (by simp +decide [States, StatesOutcome])
  obtain ⟨o, ho⟩ := hr.interface
  refine ⟨⟨o, Graph.objects_of_hasOnly fun o' => ?_, hg.signature ho⟩,
    hg.exists_mapM_signature hr.implementations fun o => (hstates _ o).trans ?_,
    hg.exists_mapM_signature hr.leaves fun o => (hstates _ o).trans ?_,
    Graph.objects_of_hasOnly hcomplete⟩
  · rw [hinterface, ho, Option.some.injEq, eq_comm]
  · simp +decide [States, StatesOutcome]
  · simp +decide [States, StatesOutcome]

/-- A node that only one check has carries that check. -/
theorem recordsAt_eq_singleton (hnodup : (history.map Prod.fst).Nodup)
    (hmem : (node, r) ∈ history) : recordsAt history node = [r] := by
  obtain ⟨before, later, rfl⟩ := List.append_of_mem hmem
  rw [List.map_append, List.map_cons, List.nodup_append, List.nodup_cons] at hnodup
  obtain ⟨-, ⟨hlater, -⟩, hbefore⟩ := hnodup
  have hnone : recordsAt before node = [] := recordsAt_eq_nil fun entry hentry =>
    hbefore _ (List.mem_map_of_mem hentry) node List.mem_cons_self
  have hnone' : recordsAt later node = [] := by
    refine recordsAt_eq_nil fun entry hentry heq => hlater ?_
    exact List.mem_map.2 ⟨entry, hentry, heq⟩
  have hone : recordsAt [(node, r)] node = [r] := by simp [recordsAt]
  calc recordsAt (before ++ (node, r) :: later) node
      = recordsAt before node ++ (recordsAt [(node, r)] node ++ recordsAt later node) := by
        rw [← recordsAt_append, ← recordsAt_append, List.singleton_append]
    _ = [r] := by rw [hnone, hnone', hone, List.nil_append, List.append_nil]

/-- All checks have different nodes exactly if no two checks have the same name. -/
theorem Recorded.nodup_iff (h : Recorded g history) :
    (history.map Prod.fst).Nodup ↔ (history.filterMap fun entry => entry.2.name).Nodup := by
  rw [List.Nodup, List.Nodup, List.pairwise_filterMap, List.pairwise_map]
  constructor
  · refine List.Pairwise.imp_of_mem ?_
    intro entry entry' hentry hentry' hne n hn n' hn' heq
    have hnode : ∀ e ∈ history, e.2.name = some n → e.1 = .check n := by
      intro e he hname
      rcases h.made e he with ⟨m, hm, hcheck⟩ | ⟨hnone, _⟩
      · rw [hname] at hm
        cases hm
        exact hcheck
      · rw [hname] at hnone
        cases hnone
    have hname' : entry'.2.name = some n := heq ▸ hn'
    exact hne ((hnode entry hentry hn).trans (hnode entry' hentry' hname').symm)
  · refine h.apart.imp₂ fun entry entry' hshared hdiffer heq => ?_
    obtain ⟨n, hn, hn'⟩ := hshared heq
    exact hdiffer n hn n hn' rfl

/-- Exactly when no name is used twice, a graph that checks are written to has one
node for each check that describes this check and no other. When all checks are
written, the node has one interface, which is read as that of its check. Its
implementations and its leaves are read as just those of its check, and it has one
statement on completeness, which says whether there are no leaves. -/
theorem one_node_per_check_iff (labels : Bool) (rs : List CheckRecord) :
    let written := addRecords { withLabels := labels } rs
    (written.1.Nodup ∧ written.2.graph.checks.Perm written.1 ∧
      List.Forall₂ written.2.graph.ReadsAsCheck written.1 rs) ↔
    (rs.filterMap CheckRecord.name).Nodup := by
  intro written
  have h : Recorded written.2 (written.1.zip rs) := (Recorded.start labels).addRecords rs
  have hlength : written.1.length = rs.length := length_addRecords _ rs
  have hfst : (written.1.zip rs).map Prod.fst = written.1 :=
    List.map_fst_zip (Nat.le_of_eq hlength)
  have hsnd : (written.1.zip rs).map Prod.snd = rs :=
    List.map_snd_zip (Nat.le_of_eq hlength.symm)
  have hnames : written.1.Nodup ↔ (rs.filterMap CheckRecord.name).Nodup := by
    conv_rhs => rw [← hsnd, List.filterMap_map]
    conv_lhs => rw [← hfst]
    exact h.nodup_iff
  refine ⟨fun hall => hnames.1 hall.1, fun hdistinct => ?_⟩
  have hnodup : written.1.Nodup := hnames.2 hdistinct
  refine ⟨hnodup, ?_, List.forall₂_iff_zip.2 ⟨hlength, fun {node r} hmem => ?_⟩⟩
  · refine (List.perm_ext_iff_of_nodup (Graph.nodup_subjects _ _ _) hnodup).2 fun s => ?_
    have hs : s ∈ written.1 ↔ ∃ entry ∈ written.1.zip rs, entry.1 = s := by
      conv_lhs => rw [← hfst]
      exact List.mem_map
    exact Graph.mem_subjects.trans ((h.checks s).trans hs.symm)
  · have hcarries := h.carries node (.inr ⟨_, hmem, rfl⟩)
    rw [recordsAt_eq_singleton (by rwa [hfst]) hmem] at hcarries
    exact hcarries.readsAsCheck h.sound

/-- The signature of a single tag. -/
def single : Signature := ⟨[.ofList [.atom ⟨"A", by decide⟩]]⟩

/-- The outcome of a check of a single tag that no implementation accepts. -/
def incomplete (name : Option Name) : CheckRecord := ⟨single, [], [single], name⟩

/-- The outcome of a check of a single tag that an implementation accepts. -/
def covered (name : Option Name) : CheckRecord := ⟨single, [single], [], name⟩

/-- Two checks of the same name share a node, which is stated both to be complete
and not to be. -/
theorem one_node_for_two_checks :
    let f : Name := ⟨"f", by decide⟩
    let written := addRecords {} [incomplete (some f), covered (some f)]
    written.1 = [.check f, .check f] ∧ written.2.graph.checks = [.check f] ∧
      written.2.graph.objects (some (.check f)) (some .complete) =
        [.literal (.truth true), .literal (.truth false)] ∧
      ¬List.Forall₂ written.2.graph.ReadsAsCheck written.1
        [incomplete (some f), covered (some f)] := by
  intro f written
  have hcomplete : written.2.graph.objects (some (.check f)) (some .complete) =
      [.literal (.truth true), .literal (.truth false)] := by decide +kernel
  refine ⟨rfl, by decide +kernel, hcomplete, fun hread => ?_⟩
  cases hread with
  | cons hfirst _ =>
    have hone := hfirst.complete
    rw [hcomplete] at hone
    cases hone

end CoverageGraph

namespace Command

/-- The outcome of checking a declaration, as it is written to a graph. -/
def recordOf (result : Declaration × SignatureSet) : CheckRecord :=
  ⟨result.1.interface, result.1.implementations, result.2.toList, result.1.name⟩

/-- The check command writes the outcomes of all declarations to one graph. -/
theorem graphOf_eq (results : List (Declaration × SignatureSet)) :
    graphOf results = (CoverageGraph.addRecords {} (results.map recordOf)).2.graph := by
  have hfold : ∀ g : CoverageGraph,
      results.foldl (fun g result => (g.addRecord (recordOf result)).2) g =
        (g.addRecords (results.map recordOf)).2 := by
    induction results with
    | nil => exact fun _ => rfl
    | cons result results ih => exact fun g => ih (g.addRecord (recordOf result)).2
  exact congrArg CoverageGraph.graph (hfold {})

end Command

end DispatchCoverage

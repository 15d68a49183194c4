import Mathlib.Data.List.Forall2
import DispatchCoverage.Surface.Declaration
import DispatchCoverage.Proofs.Derivation

/-!
# Grouping of declared lines

A list of lines falls into groups: an interface line and the lines up to the
next interface line, each blank or an implementation line. What such a line
declares is what its tokens derive (`declaresInterface_iff`,
`declaresImplementation_iff`). The groups are the declarations, in order. Lines that do not fall into groups are refused at the
first line that spoils them, for that line's own error and whatever follows it.
-/

namespace DispatchCoverage

namespace Surface

/-- Whether nothing is left of a line without its comment and the blanks at its
ends. -/
def isBlankLine (line : String) : Bool := (statement line.toList).isEmpty

/-- The word that a line begins with. -/
def lineKeyword (line : String) : String := keyword (statement line.toList)

/-- What stands behind the first space of a line. -/
def lineOperand (line : String) : String := operand (statement line.toList)

/-- Whether a line begins with a word for an implementation. -/
def HasImplementationKeyword (line : String) : Prop :=
  lineKeyword line = "implementation" ∨ lineKeyword line = "impl"

/-- A line declares an interface, with its name. -/
structure DeclaresInterface (v : Vocabulary) (line : String) (d : Declaration) : Prop where
  /-- The line begins with the word for an interface. -/
  keyword_eq : lineKeyword line = "interface"
  /-- What follows is read as the interface. -/
  read : readInterface v (lineOperand line) = .ok d

/-- A line declares an implementation. -/
structure DeclaresImplementation (v : Vocabulary) (line : String) (s : Signature) : Prop where
  /-- The line begins with a word for an implementation. -/
  keyword : HasImplementationKeyword line
  /-- What follows is read as the signature. -/
  read : v.readSignature (lineOperand line) = .ok s

/-- Lines declare implementations, in order; blank lines declare none. -/
inductive DeclaresImplementations (v : Vocabulary) : List String → List Signature → Prop where
  /-- No lines declare no implementations. -/
  | nil : DeclaresImplementations v [] []
  /-- A blank line declares no implementation. -/
  | blank {line : String} {lines : List String} {ss : List Signature} :
    isBlankLine line = true → DeclaresImplementations v lines ss →
      DeclaresImplementations v (line :: lines) ss
  /-- An implementation line declares its signature. -/
  | cons {line : String} {lines : List String} {s : Signature} {ss : List Signature} :
    DeclaresImplementation v line s → DeclaresImplementations v lines ss →
      DeclaresImplementations v (line :: lines) (s :: ss)

/-- An interface line and the lines up to the next one. -/
structure Block where
  /-- The interface line. -/
  header : String
  /-- The lines behind it. -/
  body : List String

/-- The lines of a block, in order. -/
def Block.lines (b : Block) : List String := b.header :: b.body

/-- A block declares an interface with its implementations. -/
structure Block.Declares (v : Vocabulary) (b : Block) (d : Declaration) : Prop where
  /-- The first line declares the name and the interface. -/
  header : DeclaresInterface v b.header { d with implementations := [] }
  /-- The other lines declare the implementations. -/
  body : DeclaresImplementations v b.body d.implementations

/-- A line that is not blank has an error of its own behind some earlier
lines. -/
inductive Faulty (v : Vocabulary) (earlier : List String) (line : String) : ParseError → Prop where
  /-- The interface cannot be read. -/
  | interface {cause : ParseError} : lineKeyword line = "interface" →
    readInterface v (lineOperand line) = .error cause → Faulty v earlier line cause
  /-- No interface was declared for the implementation. -/
  | stray : HasImplementationKeyword line →
    (∀ l ∈ earlier, ∀ d, ¬ DeclaresInterface v l d) → Faulty v earlier line .strayImplementation
  /-- The implementation cannot be read. -/
  | implementation {cause : ParseError} : HasImplementationKeyword line →
    (∃ l ∈ earlier, ∃ d, DeclaresInterface v l d) →
    v.readSignature (lineOperand line) = .error cause → Faulty v earlier line cause
  /-- The line begins with another word. -/
  | keyword : isBlankLine line = false → lineKeyword line ≠ "interface" →
    ¬ HasImplementationKeyword line → Faulty v earlier line (.unexpected (lineKeyword line))

section Step

variable {v : Vocabulary} {declared : List Declaration} {line : String}

/-- Take one line into the declarations read so far, the latest first. -/
def declareLine (v : Vocabulary) (declared : List Declaration) (line : String) :
    Except ParseError (List Declaration) :=
  if isBlankLine line then .ok declared else addStatement v declared (statement line.toList)

/-- A line with a word that is not empty is not blank. -/
theorem isBlankLine_eq_false (h : lineKeyword line ≠ "") : isBlankLine line = false := by
  cases hblank : isBlankLine line with
  | false => rfl
  | true =>
    rw [lineKeyword, List.isEmpty_iff.1 hblank] at h
    exact absurd rfl h

/-- A blank line changes nothing. -/
theorem declareLine_blank (h : isBlankLine line = true) :
    declareLine v declared line = .ok declared := if_pos h

/-- An interface line begins a declaration. -/
theorem declareLine_interface (h : lineKeyword line = "interface") :
    declareLine v declared line =
      (readInterface v (lineOperand line)).map (· :: declared) := by
  have hblank : isBlankLine line = false := isBlankLine_eq_false (by simp [h])
  rw [lineKeyword] at h
  simp [declareLine, hblank, addStatement, h, lineOperand]

/-- An implementation line in front of every interface line is refused. -/
theorem declareLine_stray (h : HasImplementationKeyword line) :
    declareLine v [] line = .error .strayImplementation := by
  have hblank : isBlankLine line = false :=
    isBlankLine_eq_false (by rcases h with h | h <;> simp [h])
  simp only [HasImplementationKeyword, lineKeyword] at h
  rcases h with h | h <;> simp [declareLine, hblank, addStatement, h]

/-- An implementation line adds to the latest declaration. -/
theorem declareLine_implementation (h : HasImplementationKeyword line) (latest : Declaration)
    (earlier : List Declaration) :
    declareLine v (latest :: earlier) line =
      (v.readSignature (lineOperand line)).map fun s =>
        { latest with implementations := latest.implementations ++ [s] } :: earlier := by
  have hblank : isBlankLine line = false :=
    isBlankLine_eq_false (by rcases h with h | h <;> simp [h])
  simp only [HasImplementationKeyword, lineKeyword] at h
  rcases h with h | h <;> simp [declareLine, hblank, addStatement, h, lineOperand]

/-- A line with any other word is refused. -/
theorem declareLine_other (hblank : isBlankLine line = false)
    (hinterface : lineKeyword line ≠ "interface") (h : ¬ HasImplementationKeyword line) :
    declareLine v declared line = .error (.unexpected (lineKeyword line)) := by
  simp only [HasImplementationKeyword, lineKeyword, not_or] at h hinterface
  simp [declareLine, hblank, addStatement, h, hinterface, lineKeyword]

/-- A line with the word for an implementation is no interface line. -/
theorem HasImplementationKeyword.ne_interface (h : HasImplementationKeyword line) :
    lineKeyword line ≠ "interface" := by
  rcases h with h | h <;> simp [h]

/-- What derives a signature begins with an opening bracket. -/
theorem exists_open_of_derivesSignature {tokens : List String} {s : Signature}
    (h : DerivesSignature v tokens s) : ∃ rest, tokens = "(" :: rest := by
  cases h with
  | empty => exact ⟨_, rfl⟩
  | ofSets _ => exact ⟨_, rfl⟩

/-- What is read as an interface is derived by its tokens. -/
theorem derivesInterface_of_readInterface {text : String} {d : Declaration}
    (h : readInterface v text = .ok d) :
    DerivesInterface v (tokenize text) d.name d.interface ∧ d.implementations = [] := by
  rw [readInterface] at h
  generalize tokenize text = tokens at h
  cases tokens with
  | nil => cases h
  | cons token rest =>
    dsimp only at h
    by_cases hopen : token = "("
    · rw [if_pos (beq_iff_eq.2 hopen), map_eq_ok_iff] at h
      obtain ⟨s, hread, rfl⟩ := h
      exact ⟨.unnamed (Vocabulary.complete_parseSignature_eq_ok_iff.1 hread), rfl⟩
    · rw [if_neg (mt beq_iff_eq.1 hopen)] at h
      split at h
      · cases h
      · rename_i hname
        rw [Bool.or_eq_true, not_or, Bool.not_eq_true, Bool.not_eq_true] at hname
        obtain ⟨s, hread, rfl⟩ := map_eq_ok_iff.1 h
        have hnonempty : token ≠ "" := by
          intro hempty
          rw [hempty] at hname
          exact absurd hname.1 (by decide)
        obtain ⟨n, rfl⟩ : ∃ n : Name, n.text = token := ⟨⟨token, hnonempty⟩, rfl⟩
        rw [Name.ofString?_eq_some_iff.2 rfl]
        exact ⟨.named hname.1 hname.2 (Vocabulary.complete_parseSignature_eq_ok_iff.1 hread), rfl⟩

/-- What tokens derive is read as an interface without implementations. -/
theorem readInterface_of_derivesInterface {text : String} {name : Option Name} {s : Signature}
    (h : DerivesInterface v (tokenize text) name s) :
    readInterface v text = .ok ⟨name, s, []⟩ := by
  rw [readInterface]
  generalize tokenize text = tokens at h
  cases h with
  | unnamed hs =>
    obtain ⟨rest, rfl⟩ := exists_open_of_derivesSignature hs
    dsimp only
    rw [if_pos (beq_self_eq_true "("), Vocabulary.complete_parseSignature_eq_ok_iff.2 hs]
    rfl
  | @named n tokens s hreserved hsign hs =>
    have hopen : n.text ≠ "(" := by
      intro heq
      rw [heq] at hreserved
      exact absurd hreserved (by decide)
    dsimp only
    rw [if_neg (mt beq_iff_eq.1 hopen), hreserved, hsign,
      Vocabulary.complete_parseSignature_eq_ok_iff.2 hs, Name.ofString?_eq_some_iff.2 rfl]
    rfl

/-- The operand of an interface line is read as an interface exactly if its
tokens derive the interface with its name, and there are no implementations
yet. -/
theorem readInterface_eq_ok_iff {text : String} {d : Declaration} :
    readInterface v text = .ok d ↔
      DerivesInterface v (tokenize text) d.name d.interface ∧ d.implementations = [] := by
  refine ⟨derivesInterface_of_readInterface, fun h => ?_⟩
  rw [readInterface_of_derivesInterface h.1, ← h.2]

/-- What is read as an interface has no implementations yet. -/
theorem implementations_of_readInterface {text : String} {d : Declaration}
    (h : readInterface v text = .ok d) : d.implementations = [] :=
  (derivesInterface_of_readInterface h).2

/-- A line declares an interface exactly if it begins with the word for one and
the tokens of what follows derive the interface with its name. -/
theorem declaresInterface_iff {d : Declaration} :
    DeclaresInterface v line d ↔ lineKeyword line = "interface" ∧
      DerivesInterface v (tokenize (lineOperand line)) d.name d.interface ∧
      d.implementations = [] := by
  rw [← readInterface_eq_ok_iff]
  exact ⟨fun h => ⟨h.keyword_eq, h.read⟩, fun h => ⟨h.1, h.2⟩⟩

/-- A line declares an implementation exactly if it begins with a word for one
and the tokens of what follows derive its signature. -/
theorem declaresImplementation_iff {s : Signature} :
    DeclaresImplementation v line s ↔ HasImplementationKeyword line ∧
      DerivesSignature v (tokenize (lineOperand line)) s := by
  rw [← Vocabulary.readSignature_eq_ok_iff]
  exact ⟨fun h => ⟨h.keyword, h.read⟩, fun h => ⟨h.1, h.2⟩⟩

/-- A signature is read from the tokens of a text. -/
theorem readSignature_congr {text text' : String} (h : tokenize text = tokenize text') :
    v.readSignature text = v.readSignature text' :=
  congrArg (fun tokens => (parseSignature v tokens).complete) h

/-- A signature alone is read as an interface without a name. -/
theorem readInterface_unnamed {text : String} {s : Signature}
    (h : v.readSignature text = .ok s) : readInterface v text = .ok ⟨none, s, []⟩ :=
  readInterface_of_derivesInterface (.unnamed (Vocabulary.readSignature_eq_ok_iff.1 h))

/-- An interface line opens a block with the implementations that the lines
behind it declare. -/
theorem DeclaresInterface.opens {d : Declaration} {body : List String} {ss : List Signature}
    (h : DeclaresInterface v line d) (hbody : DeclaresImplementations v body ss) :
    Block.Declares v ⟨line, body⟩ { d with implementations := ss } := by
  refine ⟨?_, hbody⟩
  rw [← implementations_of_readInterface h.read]
  exact h

/-- A line that is taken is blank, declares an interface, or declares an
implementation of the latest interface. -/
theorem declareLine_cases {next : List Declaration} (h : declareLine v declared line = .ok next) :
    (isBlankLine line = true ∧ next = declared) ∨
      (∃ d, DeclaresInterface v line d ∧ next = d :: declared) ∨
      ∃ latest earlier s, declared = latest :: earlier ∧ DeclaresImplementation v line s ∧
        next = { latest with implementations := latest.implementations ++ [s] } :: earlier := by
  cases hblank : isBlankLine line with
  | true =>
    rw [declareLine_blank hblank] at h
    cases h
    exact .inl ⟨rfl, rfl⟩
  | false =>
    by_cases hinterface : lineKeyword line = "interface"
    · rw [declareLine_interface hinterface, map_eq_ok_iff] at h
      obtain ⟨d, hread, rfl⟩ := h
      exact .inr (.inl ⟨d, ⟨hinterface, hread⟩, rfl⟩)
    · by_cases himplementation : HasImplementationKeyword line
      · cases declared with
        | nil =>
          rw [declareLine_stray himplementation] at h
          cases h
        | cons latest earlier =>
          rw [declareLine_implementation himplementation, map_eq_ok_iff] at h
          obtain ⟨s, hread, rfl⟩ := h
          exact .inr (.inr ⟨latest, earlier, s, rfl, ⟨himplementation, hread⟩, rfl⟩)
      · rw [declareLine_other hblank hinterface himplementation] at h
        cases h

/-- A line that is refused has an error of its own, where an implementation is
stray exactly if nothing is declared yet. -/
theorem faulty_of_declareLine {cause : ParseError} {earlier : List String}
    (h : declareLine v declared line = .error cause)
    (hdeclared : declared = [] ↔ ∀ l ∈ earlier, ∀ d, ¬ DeclaresInterface v l d) :
    Faulty v earlier line cause := by
  cases hblank : isBlankLine line with
  | true =>
    rw [declareLine_blank hblank] at h
    cases h
  | false =>
    by_cases hinterface : lineKeyword line = "interface"
    · rw [declareLine_interface hinterface, map_eq_error_iff] at h
      exact .interface hinterface h
    · by_cases himplementation : HasImplementationKeyword line
      · cases declared with
        | nil =>
          rw [declareLine_stray himplementation] at h
          cases h
          exact .stray himplementation (hdeclared.1 rfl)
        | cons latest others =>
          have hsome : ∃ l ∈ earlier, ∃ d, DeclaresInterface v l d := by
            by_contra hnone
            exact List.cons_ne_nil latest others
              (hdeclared.2 fun l hl d hd => hnone ⟨l, hl, d, hd⟩)
          rw [declareLine_implementation himplementation, map_eq_error_iff] at h
          exact .implementation himplementation hsome h
      · rw [declareLine_other hblank hinterface himplementation] at h
        cases h
        exact .keyword hblank hinterface himplementation

end Step

section Run

variable {v : Vocabulary}

/-- Take lines into the declarations read so far, the latest first, counting
lines from a number. -/
def declareLines (v : Vocabulary) (number : Nat) (declared : List Declaration)
    (lines : List String) : Except DeclarationError (List Declaration) :=
  addLines v number declared (lines.map String.toList)

/-- Reading lines takes them from the first on, with nothing declared yet. -/
theorem readLines_eq (lines : List String) :
    v.readLines lines = (declareLines v 1 [] lines).map List.reverse := rfl

/-- Lines are taken one after the other, up to one that is refused. -/
theorem declareLines_cons (number : Nat) (declared : List Declaration) (line : String)
    (lines : List String) :
    declareLines v number declared (line :: lines) =
      match declareLine v declared line with
      | .ok next => declareLines v (number + 1) next lines
      | .error cause => .error ⟨number, String.ofList (statement line.toList), cause⟩ := by
  unfold declareLines declareLine isBlankLine
  rw [List.map_cons, addLines]
  split
  · rfl
  · cases addStatement v declared (statement line.toList) <;> rfl

/-- Lines are taken by taking a beginning of them and then the others. -/
theorem declareLines_append (number : Nat) (declared : List Declaration)
    (lines later : List String) :
    declareLines v number declared (lines ++ later) =
      (declareLines v number declared lines).bind fun next =>
        declareLines v (number + lines.length) next later := by
  induction lines generalizing number declared with
  | nil => rfl
  | cons line lines ih =>
    rw [List.cons_append, declareLines_cons, declareLines_cons]
    cases declareLine v declared line with
    | error cause => rfl
    | ok next =>
      have hlater := ih (number + 1) next
      rw [Nat.add_assoc, Nat.add_comm 1] at hlater
      exact hlater

/-- Blank lines change nothing. -/
theorem declareLines_blank {lines : List String} (h : ∀ line ∈ lines, isBlankLine line = true)
    (number : Nat) (declared : List Declaration) :
    declareLines v number declared lines = .ok declared := by
  induction lines generalizing number with
  | nil => rfl
  | cons line lines ih =>
    rw [declareLines_cons, declareLine_blank (h line List.mem_cons_self)]
    exact ih (fun l hl => h l (List.mem_cons_of_mem line hl)) (number + 1)

/-- Implementation lines add to the latest declaration, in order. -/
theorem declareLines_implementations {lines : List String} {ss : List Signature}
    (h : DeclaresImplementations v lines ss) (number : Nat) (latest : Declaration)
    (earlier : List Declaration) :
    declareLines v number (latest :: earlier) lines =
      .ok ({ latest with implementations := latest.implementations ++ ss } :: earlier) := by
  induction h generalizing number latest with
  | nil => simp [declareLines, addLines]
  | blank hblank _ ih =>
    rw [declareLines_cons, declareLine_blank hblank]
    exact ih (number + 1) latest
  | cons hline _ ih =>
    rw [declareLines_cons, declareLine_implementation hline.keyword, hline.read]
    simp only [Except.map, ih, List.append_assoc, List.singleton_append]

/-- The lines of a block add one declaration. -/
theorem declareLines_block {b : Block} {d : Declaration} (h : b.Declares v d) (number : Nat)
    (declared : List Declaration) :
    declareLines v number declared b.lines = .ok (d :: declared) := by
  rw [Block.lines, declareLines_cons, declareLine_interface h.header.keyword_eq, h.header.read]
  simp only [Except.map, declareLines_implementations h.body, List.nil_append]

/-- The lines of several blocks add one declaration for each, in order. -/
theorem declareLines_blocks {blocks : List Block} {ds : List Declaration}
    (h : List.Forall₂ (Block.Declares v) blocks ds) (number : Nat)
    (declared : List Declaration) :
    declareLines v number declared (blocks.flatMap Block.lines) =
      .ok (ds.reverse ++ declared) := by
  induction h generalizing number declared with
  | nil => rfl
  | cons hb _ ih =>
    rw [List.flatMap_cons, declareLines_append, declareLines_block hb]
    simp only [Except.bind, ih, List.reverse_cons, List.append_assoc, List.singleton_append]

/-- Lines that are taken behind an interface line declare implementations of that
interface, and then fall into blocks. -/
theorem exists_blocks_of_cons {lines : List String} {number : Nat} {latest : Declaration}
    {earlier next : List Declaration}
    (h : declareLines v number (latest :: earlier) lines = .ok next) :
    ∃ body ss blocks ds, lines = body ++ blocks.flatMap Block.lines ∧
      DeclaresImplementations v body ss ∧ List.Forall₂ (Block.Declares v) blocks ds ∧
      next = ds.reverse ++
        { latest with implementations := latest.implementations ++ ss } :: earlier := by
  induction lines generalizing number latest earlier with
  | nil =>
    cases h
    exact ⟨[], [], [], [], rfl, .nil, .nil, by simp⟩
  | cons line lines ih =>
    rw [declareLines_cons] at h
    cases hline : declareLine v (latest :: earlier) line with
    | error cause =>
      rw [hline] at h
      cases h
    | ok after =>
      rw [hline] at h
      rcases declareLine_cases hline with ⟨hblank, rfl⟩ | ⟨d, hd, rfl⟩ | ⟨_, _, s, heq, hs, rfl⟩
      · obtain ⟨body, ss, blocks, ds, rfl, hbody, hblocks, rfl⟩ := ih h
        exact ⟨line :: body, ss, blocks, ds, rfl, .blank hblank hbody, hblocks, rfl⟩
      · -- The line opens a block, which takes the lines up to the next one.
        obtain ⟨body, ss, blocks, ds, rfl, hbody, hblocks, rfl⟩ := ih h
        refine ⟨[], [], ⟨line, body⟩ :: blocks, { d with implementations := ss } :: ds, rfl, .nil,
          .cons (hd.opens hbody) hblocks, ?_⟩
        simp [implementations_of_readInterface hd.read]
      · cases heq
        obtain ⟨body, ss, blocks, ds, rfl, hbody, hblocks, rfl⟩ := ih h
        exact ⟨line :: body, s :: ss, blocks, ds, rfl, .cons hs hbody, hblocks, by simp⟩

/-- Lines that are taken with nothing declared yet fall into blocks, with blank
lines in front of them. -/
theorem exists_blocks_of_nil {lines : List String} {number : Nat} {next : List Declaration}
    (h : declareLines v number [] lines = .ok next) :
    ∃ lead blocks, (∀ line ∈ lead, isBlankLine line = true) ∧
      lines = lead ++ blocks.flatMap Block.lines ∧
      List.Forall₂ (Block.Declares v) blocks next.reverse := by
  induction lines generalizing number with
  | nil =>
    cases h
    exact ⟨[], [], by simp, rfl, .nil⟩
  | cons line lines ih =>
    rw [declareLines_cons] at h
    cases hline : declareLine v [] line with
    | error cause =>
      rw [hline] at h
      cases h
    | ok after =>
      rw [hline] at h
      rcases declareLine_cases hline with ⟨hblank, rfl⟩ | ⟨d, hd, rfl⟩ | ⟨_, _, s, heq, _, _⟩
      · obtain ⟨lead, blocks, hlead, rfl, hblocks⟩ := ih h
        exact ⟨line :: lead, blocks, List.forall_mem_cons.2 ⟨hblank, hlead⟩, rfl, hblocks⟩
      · obtain ⟨body, ss, blocks, ds, rfl, hbody, hblocks, rfl⟩ := exists_blocks_of_cons h
        have hall := List.Forall₂.cons (hd.opens hbody) hblocks
        refine ⟨[], ⟨line, body⟩ :: blocks, by simp, rfl, ?_⟩
        simpa [implementations_of_readInterface hd.read] using hall
      · cases heq

/-- Nothing is declared exactly if nothing was and no line declares an
interface. -/
theorem declareLines_eq_nil_iff {lines : List String} {number : Nat}
    {declared next : List Declaration} (h : declareLines v number declared lines = .ok next) :
    next = [] ↔ declared = [] ∧ ∀ l ∈ lines, ∀ d, ¬ DeclaresInterface v l d := by
  induction lines generalizing number declared with
  | nil =>
    cases h
    simp
  | cons line lines ih =>
    rw [declareLines_cons] at h
    cases hline : declareLine v declared line with
    | error cause =>
      rw [hline] at h
      cases h
    | ok after =>
      rw [hline] at h
      rw [ih h, List.forall_mem_cons]
      rcases declareLine_cases hline with ⟨hblank, rfl⟩ | ⟨d, hd, rfl⟩ |
        ⟨latest, earlier, s, rfl, hs, rfl⟩
      · have hno : ∀ d, ¬ DeclaresInterface v line d := by
          intro d hd
          rw [isBlankLine_eq_false (by simp [hd.keyword_eq])] at hblank
          cases hblank
        exact ⟨fun ⟨hnil, hlater⟩ => ⟨hnil, hno, hlater⟩, fun ⟨hnil, _, hlater⟩ => ⟨hnil, hlater⟩⟩
      · exact ⟨fun ⟨hnil, _⟩ => absurd hnil (List.cons_ne_nil d declared),
          fun ⟨_, hno, _⟩ => absurd hd (hno d)⟩
      · exact ⟨fun ⟨hnil, _⟩ => absurd hnil (List.cons_ne_nil _ _),
          fun ⟨hnil, _⟩ => absurd hnil (List.cons_ne_nil _ _)⟩

/-- Lines that are refused are refused at a line behind others that are taken,
with the number of that line. -/
theorem exists_refused {lines : List String} {number : Nat} {declared : List Declaration}
    {e : DeclarationError} (h : declareLines v number declared lines = .error e) :
    ∃ before line after next cause, lines = before ++ line :: after ∧
      declareLines v number declared before = .ok next ∧
      declareLine v next line = .error cause ∧
      e = ⟨number + before.length, String.ofList (statement line.toList), cause⟩ := by
  induction lines generalizing number declared with
  | nil => cases h
  | cons line lines ih =>
    rw [declareLines_cons] at h
    cases hline : declareLine v declared line with
    | error cause =>
      rw [hline] at h
      cases h
      exact ⟨[], line, lines, declared, cause, rfl, rfl, hline, rfl⟩
    | ok taken =>
      rw [hline] at h
      obtain ⟨before, l, after, next, cause, rfl, hbefore, hl, rfl⟩ := ih h
      refine ⟨line :: before, l, after, next, cause, rfl, ?_, hl, ?_⟩
      · rw [declareLines_cons, hline]
        exact hbefore
      · rw [List.length_cons, Nat.add_right_comm, Nat.add_assoc]

/-- A line that is refused behind lines that are taken ends the reading,
whatever follows it. -/
theorem declareLines_refused {before : List String} {line : String} {number : Nat}
    {declared next : List Declaration} {cause : ParseError}
    (hbefore : declareLines v number declared before = .ok next)
    (hline : declareLine v next line = .error cause) (later : List String) :
    declareLines v number declared (before ++ line :: later) =
      .error ⟨number + before.length, String.ofList (statement line.toList), cause⟩ := by
  rw [declareLines_append, hbefore, Except.bind, declareLines_cons, hline]

end Run

section Blocks

variable {v : Vocabulary} {line : String} {lines : List String}

/-- A line that declares an interface is not blank. -/
theorem DeclaresInterface.isBlankLine_eq {d : Declaration} (h : DeclaresInterface v line d) :
    isBlankLine line = false :=
  isBlankLine_eq_false (by simp [h.keyword_eq])

/-- A line is blank or declares an implementation when lines declare
implementations. -/
theorem DeclaresImplementations.of_mem {ss : List Signature}
    (h : DeclaresImplementations v lines ss) (hmem : line ∈ lines) :
    isBlankLine line = true ∨ ∃ s, DeclaresImplementation v line s := by
  induction h with
  | nil => exact absurd hmem List.not_mem_nil
  | blank hblank _ ih =>
    rcases List.mem_cons.1 hmem with rfl | hmem
    · exact .inl hblank
    · exact ih hmem
  | cons hs _ ih =>
    rcases List.mem_cons.1 hmem with rfl | hmem
    · exact .inr ⟨_, hs⟩
    · exact ih hmem

/-- A line of some blocks is blank, or declares an interface or an
implementation. -/
theorem declares_of_mem_blocks {blocks : List Block} {ds : List Declaration}
    (h : List.Forall₂ (Block.Declares v) blocks ds)
    (hmem : line ∈ blocks.flatMap Block.lines) (hblank : isBlankLine line = false) :
    (∃ d, DeclaresInterface v line d) ∨ ∃ s, DeclaresImplementation v line s := by
  induction h with
  | nil => exact absurd hmem List.not_mem_nil
  | cons hb _ ih =>
    rw [List.flatMap_cons, List.mem_append, Block.lines, List.mem_cons] at hmem
    rcases hmem with (rfl | hbody) | hlater
    · exact .inl ⟨_, hb.header⟩
    · rcases hb.body.of_mem hbody with hblank' | hs
      · rw [hblank] at hblank'
        cases hblank'
      · exact .inr hs
    · exact ih hlater

/-- The first line of some blocks that is not blank declares an interface. -/
theorem declares_of_find?_blocks {blocks : List Block} {ds : List Declaration}
    (h : List.Forall₂ (Block.Declares v) blocks ds)
    (hfind : (blocks.flatMap Block.lines).find? (fun l => !isBlankLine l) = some line) :
    ∃ d, DeclaresInterface v line d := by
  cases h with
  | nil => cases hfind
  | @cons b d blocks ds hb _ =>
    rw [List.flatMap_cons, Block.lines, List.cons_append,
      List.find?_cons_of_pos (by simp [hb.header.isBlankLine_eq])] at hfind
    cases hfind
    exact ⟨_, hb.header⟩

/-- A line with an error of its own is not blank. -/
theorem Faulty.isBlankLine_eq {earlier : List String} {cause : ParseError}
    (h : Faulty v earlier line cause) : isBlankLine line = false := by
  cases h with
  | interface hkeyword _ => exact isBlankLine_eq_false (by simp [hkeyword])
  | stray hkeyword _ => exact isBlankLine_eq_false (by rcases hkeyword with h | h <;> simp [h])
  | implementation hkeyword _ _ =>
    exact isBlankLine_eq_false (by rcases hkeyword with h | h <;> simp [h])
  | keyword hblank _ _ => exact hblank

/-- A line with an error of its own declares no interface. -/
theorem Faulty.not_declaresInterface {earlier : List String} {cause : ParseError} {d : Declaration}
    (h : Faulty v earlier line cause) : ¬ DeclaresInterface v line d := by
  intro hd
  cases h with
  | interface _ hread =>
    rw [hd.read] at hread
    cases hread
  | stray hkeyword _ => exact hkeyword.ne_interface hd.keyword_eq
  | implementation hkeyword _ _ => exact hkeyword.ne_interface hd.keyword_eq
  | keyword _ hne _ => exact hne hd.keyword_eq

/-- A line with an error of its own that can be read as an implementation has no
interface line in front of it. -/
theorem Faulty.not_declaresInterface_earlier {earlier : List String} {cause : ParseError}
    {s : Signature} (h : Faulty v earlier line cause) (hs : DeclaresImplementation v line s) :
    ∀ l ∈ earlier, ∀ d, ¬ DeclaresInterface v l d := by
  cases h with
  | interface hkeyword _ => exact absurd hkeyword hs.keyword.ne_interface
  | stray _ hnone => exact hnone
  | implementation _ _ hread =>
    rw [hs.read] at hread
    cases hread
  | keyword _ _ hno => exact absurd hs.keyword hno

end Blocks

end Surface

namespace Vocabulary

open Surface

variable {v : Vocabulary} {lines : List String}

/-- Lines are read as the declarations of their blocks. -/
theorem readLines_eq_ok_iff {declared : List Declaration} :
    v.readLines lines = .ok declared ↔
      ∃ lead blocks, (∀ line ∈ lead, isBlankLine line = true) ∧
        lines = lead ++ blocks.flatMap Block.lines ∧
        List.Forall₂ (Block.Declares v) blocks declared := by
  rw [readLines_eq, map_eq_ok_iff]
  constructor
  · rintro ⟨next, hnext, rfl⟩
    exact exists_blocks_of_nil hnext
  · rintro ⟨lead, blocks, hlead, rfl, hblocks⟩
    refine ⟨declared.reverse, ?_, List.reverse_reverse declared⟩
    rw [declareLines_append, declareLines_blank hlead]
    simp only [Except.bind, declareLines_blocks hblocks, List.append_nil]

/-- Lines that are refused are refused for a line with an error of its own behind
lines that are read, and whatever follows that line. -/
theorem exists_faulty {e : DeclarationError} (h : v.readLines lines = .error e) :
    ∃ before line after, lines = before ++ line :: after ∧
      e.lineNumber = before.length + 1 ∧ e.line = String.ofList (statement line.toList) ∧
      (∃ declared, v.readLines before = .ok declared) ∧ Faulty v before line e.cause ∧
      ∀ later, v.readLines (before ++ line :: later) = .error e := by
  rw [readLines_eq, map_eq_error_iff] at h
  obtain ⟨before, line, after, next, cause, rfl, hbefore, hline, rfl⟩ := exists_refused h
  have hnil : next = [] ↔ ∀ l ∈ before, ∀ d, ¬ DeclaresInterface v l d := by
    simpa using declareLines_eq_nil_iff hbefore
  refine ⟨before, line, after, rfl, Nat.add_comm _ _, rfl, ⟨next.reverse, ?_⟩,
    faulty_of_declareLine hline hnil, fun later => ?_⟩
  · rw [readLines_eq, hbefore]
    rfl
  · rw [readLines_eq, declareLines_refused hbefore hline]
    rfl

/-- A beginning of lines that are read is read. -/
theorem exists_readLines_of_append {later : List String} {declared : List Declaration}
    (h : v.readLines (lines ++ later) = .ok declared) :
    ∃ earlier, v.readLines lines = .ok earlier := by
  rw [readLines_eq, declareLines_append] at h
  rw [readLines_eq]
  cases hlines : declareLines v 1 [] lines with
  | ok next => exact ⟨next.reverse, rfl⟩
  | error cause =>
    rw [hlines] at h
    cases h

/-- Lines are read exactly if the first line that is not blank declares an
interface, and every other one an interface or an implementation. -/
theorem exists_readLines_iff :
    (∃ declared, v.readLines lines = .ok declared) ↔
      (∀ line, lines.find? (fun l => !isBlankLine l) = some line →
        ∃ d, DeclaresInterface v line d) ∧
      ∀ line ∈ lines, isBlankLine line = false →
        (∃ d, DeclaresInterface v line d) ∨ ∃ s, DeclaresImplementation v line s := by
  constructor
  · rintro ⟨declared, hdeclared⟩
    obtain ⟨lead, blocks, hlead, rfl, hblocks⟩ := readLines_eq_ok_iff.1 hdeclared
    constructor
    · intro line hfind
      have hnone : lead.find? (fun l => !isBlankLine l) = none :=
        List.find?_eq_none.2 fun l hl => by simp [hlead l hl]
      rw [List.find?_append, hnone, Option.none_or] at hfind
      exact declares_of_find?_blocks hblocks hfind
    · intro line hmem hblank
      rcases List.mem_append.1 hmem with hmem | hmem
      · rw [hlead line hmem] at hblank
        cases hblank
      · exact declares_of_mem_blocks hblocks hmem hblank
  · rintro ⟨hfirst, hvalid⟩
    cases hread : v.readLines lines with
    | ok declared => exact ⟨declared, rfl⟩
    | error e =>
      obtain ⟨before, line, after, rfl, _, _, _, hfaulty, _⟩ := exists_faulty hread
      have hblank := hfaulty.isBlankLine_eq
      rcases hvalid line (by simp) hblank with ⟨d, hd⟩ | ⟨s, hs⟩
      · exact absurd hd hfaulty.not_declaresInterface
      · -- The line lacks an interface, so the first line that is not blank is none.
        have hnone := hfaulty.not_declaresInterface_earlier hs
        rw [List.find?_append, List.find?_cons_of_pos (by simp [hblank])] at hfirst
        cases hfind : before.find? (fun l => !isBlankLine l) with
        | none =>
          obtain ⟨d, hd⟩ := hfirst line (by rw [hfind]; rfl)
          exact absurd hd hfaulty.not_declaresInterface
        | some l =>
          obtain ⟨d, hd⟩ := hfirst l (by rw [hfind]; rfl)
          exact absurd hd (hnone l (List.mem_of_find?_eq_some hfind) d)

/-- Lists of declarations are grouped by their interface lines. Lines are read
exactly if the first one that is not blank declares an interface, and every
other one an interface or an implementation. Then there is one declaration for
each interface line, in order, with the implementations of the lines up to the
next interface line. Otherwise the first line whose addition makes the lines
unreadable is reported, by its number from 1 with blank lines counted, by its
text and with its own error, whatever follows it. -/
theorem readLines_groups (v : Vocabulary) (lines : List String) :
    ((∃ declared, v.readLines lines = .ok declared) ↔
        (∀ line, lines.find? (fun l => !isBlankLine l) = some line →
          ∃ d, DeclaresInterface v line d) ∧
        ∀ line ∈ lines, isBlankLine line = false →
          (∃ d, DeclaresInterface v line d) ∨ ∃ s, DeclaresImplementation v line s) ∧
      (∀ declared, v.readLines lines = .ok declared ↔
        ∃ lead blocks, (∀ line ∈ lead, isBlankLine line = true) ∧
          lines = lead ++ blocks.flatMap Block.lines ∧
          List.Forall₂ (Block.Declares v) blocks declared) ∧
      ∀ e, v.readLines lines = .error e →
        ∃ line, lines[e.lineNumber - 1]? = some line ∧ 1 ≤ e.lineNumber ∧
          (∀ k < e.lineNumber, ∃ declared, v.readLines (lines.take k) = .ok declared) ∧
          e.line = String.ofList (statement line.toList) ∧
          Faulty v (lines.take (e.lineNumber - 1)) line e.cause ∧
          ∀ later, v.readLines (lines.take e.lineNumber ++ later) = .error e := by
  refine ⟨exists_readLines_iff, fun declared => readLines_eq_ok_iff, fun e he => ?_⟩
  obtain ⟨before, line, after, rfl, hnumber, htext, ⟨declared, hbefore⟩, hfaulty, hlater⟩ :=
    exists_faulty he
  have hearlier : e.lineNumber - 1 = before.length := by omega
  have htake : (before ++ line :: after).take e.lineNumber = before ++ [line] := by
    rw [hnumber, List.append_cons, List.take_left' (by simp)]
  rw [hearlier, htake, List.take_left]
  refine ⟨line, by simp, by omega, fun k hk => ?_, htext, hfaulty, fun later => ?_⟩
  · have hk' : k ≤ before.length := by omega
    rw [List.take_append_of_le_length hk']
    have hsplit : v.readLines (before.take k ++ before.drop k) = .ok declared := by
      rw [List.take_append_drop]
      exact hbefore
    exact exists_readLines_of_append hsplit
  · rw [List.append_assoc]
    exact hlater later

/-- An interface with two implementations and a third one that lacks its
brackets, among comments and blank lines. -/
def unbracketedLines : List String :=
  ["# shapes", "interface area ()", "", "impl () # first", "implementation ()", " impl A",
    "interface ("]

/-- The line without brackets is the sixth one. It is refused for its only
token, the lines in front of it are read, and those behind it do not matter. -/
theorem readLines_groups_unbracketed :
    ({} : Vocabulary).readLines unbracketedLines =
        .error ⟨6, "impl A", .unexpected "A"⟩ ∧
      (∃ declared, ({} : Vocabulary).readLines (unbracketedLines.take 5) = .ok declared) ∧
      Faulty {} (unbracketedLines.take 5) " impl A" (.unexpected "A") ∧
      ∀ later, ({} : Vocabulary).readLines (unbracketedLines.take 6 ++ later) =
        .error ⟨6, "impl A", .unexpected "A"⟩ := by
  have hread : ({} : Vocabulary).readLines unbracketedLines =
      .error ⟨6, "impl A", .unexpected "A"⟩ := by rfl
  obtain ⟨line, hline, _, hbefore, _, hfaulty, hlater⟩ :=
    (readLines_groups {} unbracketedLines).2.2 _ hread
  cases hline
  exact ⟨hread, hbefore 5 (by decide), hfaulty, hlater⟩

end Vocabulary

end DispatchCoverage

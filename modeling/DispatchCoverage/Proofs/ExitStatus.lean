import DispatchCoverage.Proofs.Grouping
import DispatchCoverage.Proofs.Invocation
import DispatchCoverage.Proofs.Truncation

/-!
# The status of the check command

The check command reads all declarations before it checks the first one, so a
text that cannot be read is noticed whatever the checks would say. Each file is
read on its own. A check has no result if the arities differ or the budget is
used up, and otherwise it has no leaves exactly if the implementations accept
all that the interface accepts. The status of the command follows: it is 2 when
something is refused, and else says whether every declaration is covered.
-/

namespace DispatchCoverage

namespace Declaration

/-- Whether the check of a declaration has no result: an implementation has another
arity than the interface, or the analysis takes more rounds than allowed. -/
def Fails (d : Declaration) (budget : Option RoundBudget) : Prop :=
  (∃ i ∈ d.implementations, i.arity ≠ d.interface.arity) ∨
    ∃ b, budget = some b ∧ b.limit < d.check.rounds

/-- Whether every tuple that the interface accepts is accepted by one of the
implementations. -/
def IsCovered (d : Declaration) : Prop :=
  ∀ tuple, d.interface.Accepts tuple → ∃ i ∈ d.implementations, i.Accepts tuple

/-- A declaration that is not covered leaves a tuple to no implementation. -/
theorem not_isCovered_iff {d : Declaration} : ¬d.IsCovered ↔
    ∃ tuple, d.interface.Accepts tuple ∧ Uncovered d.implementations tuple := by
  simp only [IsCovered, Uncovered, not_forall, exists_prop, not_exists, not_and]

/-- The solver that checks a declaration. -/
def solver (d : Declaration) (budget : Option RoundBudget) (strict : Bool) : Solver :=
  ⟨d.implementations, budget, strict, 0⟩

variable {d : Declaration} {budget : Option RoundBudget}

/-- A check has a result if the arities are the same and the rounds are allowed. -/
theorem not_fails (harity : ∀ i ∈ d.implementations, i.arity = d.interface.arity)
    (hrounds : ∀ b, budget = some b → d.check.rounds ≤ b.limit) : ¬d.Fails budget := by
  rintro (⟨i, hi, hother⟩ | ⟨b, hb, hlt⟩)
  · exact hother (harity i hi)
  · exact absurd (hrounds b hb) (Nat.not_le.2 hlt)

/-- A check without a result ends with an error. -/
theorem exists_error_of_fails (h : d.Fails budget) (strict : Bool) :
    ∃ e, (d.check budget strict).result = .error e := by
  by_cases hother : ∃ i ∈ d.implementations, i.arity ≠ d.interface.arity
  · have hmismatch : ∃ m, (d.solver budget strict).mismatch? d.interface = some m :=
      Solver.exists_mismatch?_iff.2 hother
    obtain ⟨m, hm⟩ := hmismatch
    exact ⟨_, Solver.solve_eq_arity_iff.2 hm⟩
  · obtain ⟨b, hb, hlt⟩ := h.resolve_left hother
    have harity : ∀ i ∈ d.implementations, i.arity = d.interface.arity := by
      intro i hi
      by_contra hne
      exact hother ⟨i, hi, hne⟩
    have hfree : (d.solver none true).budget = none := rfl
    have hsame : (d.solver none true).implementations =
        (d.solver budget strict).implementations := rfl
    obtain ⟨found, pending, hresult, _⟩ := Solver.solve_of_lt_rounds hfree hsame harity hb hlt
    exact ⟨_, hresult⟩

/-- Any other check finds leaves, which accept exactly the uncovered tuples. -/
theorem exists_leaves_of_not_fails (h : ¬d.Fails budget) (strict : Bool) :
    ∃ leaves, (d.check budget strict).result = .ok leaves ∧
      (∀ tuple, (∃ leaf ∈ leaves, leaf.Accepts tuple) ↔
        d.interface.Accepts tuple ∧ Uncovered d.implementations tuple) ∧
      ∀ leaf ∈ leaves, leaf.isInhabited = true := by
  have harity : ∀ i ∈ d.implementations, i.arity = d.interface.arity := by
    intro i hi
    by_contra hne
    exact h (.inl ⟨i, hi, hne⟩)
  cases hbudget : budget with
  | none =>
    have hfree : (d.solver none strict).budget = none := rfl
    obtain ⟨leaves, hleaves, haccepts, hinhabited⟩ := Solver.exists_leaves hfree harity
    exact ⟨leaves, hleaves, haccepts, fun leaf hleaf => (hinhabited leaf hleaf).1⟩
  | some b =>
    have hfree : (d.solver none true).budget = none := rfl
    have hsame : (d.solver none true).implementations =
        (d.solver (some b) strict).implementations := rfl
    have hle : d.check.rounds ≤ b.limit := Nat.not_lt.1 fun hlt => h (.inr ⟨b, hbudget, hlt⟩)
    obtain ⟨leaves, hleaves, haccepts, hinhabited⟩ := Solver.exists_leaves hfree harity
    have hall := Solver.solve_of_rounds_le hfree hsame harity rfl hle
    exact ⟨leaves, hall.1.trans hleaves, haccepts, fun leaf hleaf => (hinhabited leaf hleaf).1⟩

/-- A check has no leaves exactly if the declaration is covered. -/
theorem exists_leaves_isEmpty_iff (h : ¬d.Fails budget) (strict : Bool) :
    ∃ leaves, (d.check budget strict).result = .ok leaves ∧
      (leaves.isEmpty = true ↔ d.IsCovered) := by
  obtain ⟨leaves, hleaves, haccepts, hinhabited⟩ := exists_leaves_of_not_fails h strict
  refine ⟨leaves, hleaves, fun hempty tuple htuple => ?_, fun hcovered => ?_⟩
  · by_contra hnone
    have huncovered : Uncovered d.implementations tuple := fun i hi hit => hnone ⟨i, hi, hit⟩
    obtain ⟨leaf, hleaf, _⟩ := (haccepts tuple).2 ⟨htuple, huncovered⟩
    rw [Ascending.isEmpty_iff.1 hempty] at hleaf
    exact Ascending.not_mem_empty leaf hleaf
  · by_contra hne
    obtain ⟨leaf, hleaf⟩ := Ascending.isEmpty_eq_false_iff.1 (Bool.eq_false_iff.2 hne)
    obtain ⟨tuple, htuple⟩ := Signature.isInhabited_iff.1 (hinhabited leaf hleaf)
    obtain ⟨hinterface, huncovered⟩ := (haccepts tuple).1 ⟨leaf, hleaf, htuple⟩
    obtain ⟨i, hi, hit⟩ := hcovered tuple hinterface
    exact huncovered i hi hit

end Declaration

namespace Command

variable {storage : Storage} {verbose : Bool} {r : CheckRequest} {ds : List Declaration}

/-! ## Reading declarations -/

/-- A file that is there and holds a text. -/
def Storage.IsReadable (storage : Storage) (path : String) : Prop :=
  ∃ bytes text, storage.read path = .ok bytes ∧ decode? bytes = some text

/-- What the text of a file declares, read on its own. -/
def Storage.FileDeclares (storage : Storage) (path : String) (ds : List Declaration) : Prop :=
  ∃ bytes text, storage.read path = .ok bytes ∧ decode? bytes = some text ∧
    ({} : Vocabulary).readDeclarations (String.ofList text) = .ok ds

/-- What the switches declare: nothing without an interface, and otherwise the
interface with all implementations given. -/
def CheckRequest.SwitchesDeclare (r : CheckRequest) (ds : List Declaration) : Prop :=
  match r.interface with
  | none => ds = []
  | some interface => ∃ s is, ({} : Vocabulary).readSignature interface = .ok s ∧
      List.Forall₂ (fun text i => ({} : Vocabulary).readSignature text = .ok i)
        r.implementations is ∧
      ds = [⟨none, s, is⟩]

/-- What a request declares: by its switches, and then by each of its files, in
order. -/
def CheckRequest.Declares (storage : Storage) (r : CheckRequest) (ds : List Declaration) : Prop :=
  ∃ given groups, r.SwitchesDeclare given ∧
    List.Forall₂ storage.FileDeclares r.paths groups ∧ ds = given ++ groups.flatten

/-- Whether an error is about what a text says. -/
def LoadError.IsAboutText : LoadError → Prop
  | .signature _ => True
  | .line _ => True
  | .file _ => False
  | .encoding => False

/-- Reading declarations gives some of them, or an error about a text. -/
structure Loads (result : Except LoadError (List Declaration))
    (declares : List Declaration → Prop) : Prop where
  /-- What is read is what is declared. -/
  ok_iff : ∀ ds, result = .ok ds ↔ declares ds
  /-- An error is about a text. -/
  isAboutText : ∀ e, result = .error e → e.IsAboutText

/-- Reading one thing and then another one gives what both declare, in order. -/
theorem Loads.append {first rest : Except LoadError (List Declaration)}
    {declares declares' : List Declaration → Prop} (h : Loads first declares)
    (h' : Loads rest declares') :
    Loads (first.bind fun earlier => rest.map (earlier ++ ·)) fun ds =>
      ∃ earlier later, declares earlier ∧ declares' later ∧ ds = earlier ++ later := by
  refine ⟨fun ds => ?_, fun e he => ?_⟩
  · simp only [bind_eq_ok_iff, map_eq_ok_iff, h.ok_iff, h'.ok_iff]
    constructor
    · rintro ⟨earlier, hearlier, later, hlater, rfl⟩
      exact ⟨earlier, later, hearlier, hlater, rfl⟩
    · rintro ⟨earlier, later, hearlier, hlater, rfl⟩
      exact ⟨earlier, hearlier, later, hlater, rfl⟩
  · cases hfirst : first with
    | error e' =>
      rw [hfirst] at he
      cases he
      exact h.isAboutText e hfirst
    | ok earlier =>
      rw [hfirst] at he
      exact h'.isAboutText e (map_eq_error_iff.1 he)

/-- Reading a text gives what it declares. -/
theorem Loads.of_mapError {ε : Type} {result : Except ε (List Declaration)} {f : ε → LoadError}
    (hf : ∀ e, (f e).IsAboutText) : Loads (result.mapError f) fun ds => result = .ok ds := by
  cases result with
  | error cause =>
    refine ⟨fun ds => by simp [Except.mapError], fun e he => ?_⟩
    cases he
    exact hf cause
  | ok declared => exact ⟨fun ds => by simp [Except.mapError], fun e he => by cases he⟩

/-- Reading the same is reading it in other words. -/
theorem Loads.congr {result : Except LoadError (List Declaration)}
    {declares declares' : List Declaration → Prop} (h : Loads result declares)
    (hsame : ∀ ds, declares ds ↔ declares' ds) : Loads result declares' :=
  ⟨fun ds => (h.ok_iff ds).trans (hsame ds), h.isAboutText⟩

/-- Reading a file gives what its text declares. -/
theorem loadFile_loads {path : String} (h : storage.IsReadable path) :
    Loads (loadFile storage path) (storage.FileDeclares path) := by
  obtain ⟨bytes, text, hbytes, htext⟩ := h
  have hload : loadFile storage path =
      (({} : Vocabulary).readDeclarations (String.ofList text)).mapError .line := by
    rw [Vocabulary.readDeclarations, String.toList_ofList, loadFile, hbytes]
    simp only [bind, Except.bind, Except.mapError, htext]
  have hline : ∀ cause, (LoadError.line cause).IsAboutText := fun _ => trivial
  rw [hload]
  refine (Loads.of_mapError hline).congr fun ds => ?_
  refine ⟨fun hread => ⟨bytes, text, hbytes, htext, hread⟩, ?_⟩
  rintro ⟨bytes', text', hbytes', htext', hread⟩
  rw [hbytes] at hbytes'
  cases hbytes'
  rw [htext] at htext'
  cases htext'
  exact hread

/-- Several files are read one after the other, up to the first that cannot be. -/
theorem loadFiles_cons (path : String) (paths : List String) :
    (loadFiles storage verbose (path :: paths)).2 =
      (loadFile storage path).bind fun earlier =>
        (loadFiles storage verbose paths).2.map (earlier ++ ·) := by
  rw [loadFiles]
  cases loadFile storage path <;> rfl

/-- Reading several files gives what their texts declare, one after the other. -/
theorem loadFiles_loads {paths : List String} (h : ∀ path ∈ paths, storage.IsReadable path) :
    Loads (loadFiles storage verbose paths).2 fun ds =>
      ∃ groups, List.Forall₂ storage.FileDeclares paths groups ∧ ds = groups.flatten := by
  induction paths with
  | nil => exact ⟨fun ds => by simp [loadFiles, eq_comm], fun e he => by cases he⟩
  | cons path paths ih =>
    obtain ⟨hpath, hpaths⟩ := List.forall_mem_cons.1 h
    rw [loadFiles_cons]
    refine ((loadFile_loads hpath).append (ih hpaths)).congr fun ds => ⟨?_, ?_⟩
    · rintro ⟨earlier, later, hearlier, ⟨groups, hgroups, rfl⟩, rfl⟩
      exact ⟨earlier :: groups, .cons hearlier hgroups, rfl⟩
    · rintro ⟨groups, hgroups, rfl⟩
      obtain ⟨earlier, later, hearlier, hlater, rfl⟩ := List.forall₂_cons_left_iff.1 hgroups
      exact ⟨earlier, later.flatten, hearlier, ⟨later, hlater, rfl⟩, rfl⟩

/-- The declaration given by switches is the interface with the implementations. -/
theorem declarationOf_eq_ok_iff {interface : String} {implementations : List String}
    {d : Declaration} :
    declarationOf interface implementations = .ok d ↔
      ∃ s is, ({} : Vocabulary).readSignature interface = .ok s ∧
        List.Forall₂ (fun text i => ({} : Vocabulary).readSignature text = .ok i)
          implementations is ∧ d = ⟨none, s, is⟩ := by
  rw [declarationOf]
  simp only [bind, pure, Except.pure, bind_eq_ok_iff, mapM_eq_ok_iff]
  constructor
  · rintro ⟨s, hs, is, his, hd⟩
    cases hd
    exact ⟨s, is, hs, his, rfl⟩
  · rintro ⟨s, is, hs, his, rfl⟩
    exact ⟨s, hs, is, his, rfl⟩

/-- The declarations given by switches. -/
def CheckRequest.given (r : CheckRequest) : Except ParseError (List Declaration) :=
  match r.interface with
  | none => .ok []
  | some interface => (declarationOf interface r.implementations).map ([·])

/-- What is given by switches is what the switches declare. -/
theorem given_eq_ok_iff : r.given = .ok ds ↔ r.SwitchesDeclare ds := by
  rw [CheckRequest.given, CheckRequest.SwitchesDeclare]
  cases r.interface with
  | none => simp [eq_comm]
  | some interface =>
    rw [map_eq_ok_iff]
    simp only [declarationOf_eq_ok_iff]
    constructor
    · rintro ⟨_, ⟨s, is, hs, his, rfl⟩, rfl⟩
      exact ⟨s, is, hs, his, rfl⟩
    · rintro ⟨s, is, hs, his, rfl⟩
      exact ⟨_, ⟨s, is, hs, his, rfl⟩, rfl⟩

/-- What is given by switches is read in front of the files. -/
theorem load_eq : (load storage verbose r).2 =
    (r.given.mapError .signature).bind fun earlier =>
      (loadFiles storage verbose r.paths).2.map (earlier ++ ·) := by
  rw [load, CheckRequest.given]
  cases r.interface with
  | none => cases (loadFiles storage verbose r.paths).2 <;> rfl
  | some interface =>
    dsimp only
    cases declarationOf interface r.implementations <;> rfl

/-- Reading all declarations gives what the request declares. -/
theorem load_loads (h : ∀ path ∈ r.paths, storage.IsReadable path) :
    Loads (load storage verbose r).2 (r.Declares storage) := by
  have hsignature : ∀ cause, (LoadError.signature cause).IsAboutText := fun _ => trivial
  have hgiven : Loads (r.given.mapError .signature) r.SwitchesDeclare :=
    (Loads.of_mapError hsignature).congr fun _ => given_eq_ok_iff
  rw [load_eq]
  refine (hgiven.append (loadFiles_loads h)).congr fun ds => ⟨?_, ?_⟩
  · rintro ⟨given, later, hgiven, ⟨groups, hgroups, rfl⟩, rfl⟩
    exact ⟨given, groups, hgiven, hgroups, rfl⟩
  · rintro ⟨given, groups, hgiven, hgroups, rfl⟩
    exact ⟨given, groups.flatten, hgiven, ⟨groups, hgroups, rfl⟩, rfl⟩

/-! ## Checking declarations -/

/-- Checking several declarations ends with the first that has no result. -/
theorem checkAll_cons (d : Declaration) (ds : List Declaration) :
    (checkAll verbose r (d :: ds)).2 =
      match (d.check r.budget r.strict).result with
      | .error e => .error (d, e)
      | .ok leaves => (checkAll verbose r ds).2.map ((d, leaves) :: ·) := by
  rw [checkAll]
  cases (d.check r.budget r.strict).result <;> rfl

/-- A declaration without a result leaves all declarations without one. -/
theorem exists_checkAll_error (h : ∃ d ∈ ds, d.Fails r.budget) :
    ∃ failed, (checkAll verbose r ds).2 = .error failed := by
  induction ds with
  | nil =>
    obtain ⟨_, hmem, _⟩ := h
    exact absurd hmem List.not_mem_nil
  | cons d ds ih =>
    rw [checkAll_cons]
    -- A first declaration with a result leaves the failure to one of the others.
    by_cases hd : d.Fails r.budget
    · obtain ⟨e, he⟩ := Declaration.exists_error_of_fails hd r.strict
      exact ⟨(d, e), by rw [he]⟩
    · obtain ⟨leaves, hleaves, _⟩ := Declaration.exists_leaves_of_not_fails hd r.strict
      have hrest : ∃ d ∈ ds, d.Fails r.budget := by
        obtain ⟨d', hmem, hfails⟩ := h
        rcases List.mem_cons.1 hmem with rfl | hmem
        · exact absurd hfails hd
        · exact ⟨d', hmem, hfails⟩
      obtain ⟨failed, hfailed⟩ := ih hrest
      exact ⟨failed, by rw [hleaves, hfailed]; rfl⟩

/-- When every declaration has a result, none of the results has leaves exactly if
all declarations are covered. -/
theorem exists_checkAll_results (h : ∀ d ∈ ds, ¬d.Fails r.budget) :
    ∃ results, (checkAll verbose r ds).2 = .ok results ∧
      (results.all (fun (_, leaves) => leaves.isEmpty) = true ↔ ∀ d ∈ ds, d.IsCovered) := by
  induction ds with
  | nil => exact ⟨[], rfl, by simp⟩
  | cons d ds ih =>
    obtain ⟨hd, hds⟩ := List.forall_mem_cons.1 h
    obtain ⟨leaves, hleaves, hempty⟩ := Declaration.exists_leaves_isEmpty_iff hd r.strict
    obtain ⟨results, hresults, hall⟩ := ih hds
    refine ⟨(d, leaves) :: results, ?_, ?_⟩
    · rw [checkAll_cons, hleaves, hresults]
      rfl
    · rw [List.all_cons, Bool.and_eq_true, hempty, hall, List.forall_mem_cons]

/-! ## A storage with a single file -/

/-- A storage with nothing but a file at the given path. -/
def Storage.single (path text : String) : Storage where
  bytes place := if place = tidyPath path then .ok text.toUTF8 else .error (.missing place)
  checkWritable _ := .ok ()

/-- The encoding of a text is decoded to the text with unified line feeds. -/
theorem decode?_toUTF8 (text : String) :
    decode? text.toUTF8 = some (Text.unifyLineFeeds text.toList) := by
  have hvalid : text.toUTF8.IsValidUTF8 := text.isValidUTF8
  have htext : String.fromUTF8 text.toUTF8 hvalid = text := rfl
  rw [decode?, String.fromUTF8?, dif_pos hvalid, htext]
  rfl

/-- The only file of a storage holds the encoding of its text. -/
theorem read_single (path text : String) :
    (Storage.single path text).read path = .ok text.toUTF8 := by
  simp only [Storage.read, Storage.single, if_true]

/-- The only file of a storage can be read. -/
theorem isReadable_single (path text : String) :
    ∀ p ∈ [path], (Storage.single path text).IsReadable p := by
  intro p hp
  rw [List.mem_singleton.1 hp]
  exact ⟨_, _, read_single path text, decode?_toUTF8 text⟩

/-- A request for the only file of a storage declares what the text of the file
declares. -/
theorem declares_single {path text : String} (hinterface : r.interface = none)
    (hpaths : r.paths = [path]) (hread : ({} : Vocabulary).readDeclarations
      (String.ofList (Text.unifyLineFeeds text.toList)) = .ok ds) :
    r.Declares (Storage.single path text) ds := by
  have hfile : (Storage.single path text).FileDeclares path ds :=
    ⟨_, _, read_single path text, decode?_toUTF8 text, hread⟩
  have hswitches : r.SwitchesDeclare [] := by
    rw [CheckRequest.SwitchesDeclare, hinterface]
  refine ⟨[], [ds], hswitches, ?_, ?_⟩
  · rw [hpaths]
    exact .cons hfile .nil
  · simp

/-! ## The status -/

/-- Whether a request is refused: it names nothing to check, or what it names cannot
be read, or the check of a declaration has no result. -/
def CheckRequest.IsRefused (storage : Storage) (r : CheckRequest) : Prop :=
  (r.interface = none ∧ r.paths = []) ∨ (¬∃ ds, r.Declares storage ds) ∨
    ∃ ds, r.Declares storage ds ∧ ∃ d ∈ ds, d.Fails r.budget

/-- A request is not refused if it names something to check, and what it declares
can be checked. -/
theorem not_isRefused (hreadable : ∀ path ∈ r.paths, storage.IsReadable path)
    (hsomething : r.interface ≠ none ∨ r.paths ≠ []) (hds : r.Declares storage ds)
    (hfails : ∀ d ∈ ds, ¬d.Fails r.budget) : ¬r.IsRefused storage := by
  have hloads : Loads (load storage false r).2 (r.Declares storage) := load_loads hreadable
  rintro (⟨hinterface, hpaths⟩ | hnone | ⟨ds', hds', d, hd, hd'⟩)
  · exact hsomething.elim (absurd hinterface) (absurd hpaths)
  · exact hnone ⟨ds, hds⟩
  · have hsame : ds = ds' := Except.ok.inj (((hloads.ok_iff ds).2 hds).symm.trans
      ((hloads.ok_iff ds').2 hds'))
    exact hfails d (hsame ▸ hd) hd'

section Stages

variable (hsomething : ¬(r.interface = none ∧ r.paths = []))
include hsomething

/-- An error about a text ends the check with status 2 and without output. -/
theorem check_of_load_error {e : LoadError} (hload : (load storage verbose r).2 = .error e)
    (htext : e.IsAboutText) :
    (check storage verbose r).ending = .exit 2 ∧ (check storage verbose r).output = none := by
  rw [check, if_neg (by simpa using hsomething)]
  cases hread : load storage verbose r with
  | mk lines result =>
    rw [hread] at hload
    cases hload
    cases e with
    | signature cause => exact ⟨rfl, rfl⟩
    | line cause => exact ⟨rfl, rfl⟩
    | file cause => exact htext.elim
    | encoding => exact htext.elim

/-- A declaration without a result ends the check with status 2 and without
output. -/
theorem check_of_checkAll_error {failed : Declaration × SolverError}
    (hload : (load storage verbose r).2 = .ok ds)
    (hcheck : (checkAll verbose r ds).2 = .error failed) :
    (check storage verbose r).ending = .exit 2 ∧ (check storage verbose r).output = none := by
  rw [check, if_neg (by simpa using hsomething)]
  cases hread : load storage verbose r with
  | mk lines result =>
    rw [hread] at hload
    cases hload
    dsimp only
    cases houtcome : checkAll verbose r ds with
    | mk later outcome =>
      rw [houtcome] at hcheck
      cases hcheck
      exact ⟨rfl, rfl⟩

/-- The check concludes with the results of all declarations. -/
theorem check_of_checkAll_ok {results : List (Declaration × SignatureSet)}
    (hload : (load storage verbose r).2 = .ok ds)
    (hcheck : (checkAll verbose r ds).2 = .ok results) :
    ∃ lines, check storage verbose r = conclude storage r lines results := by
  rw [check, if_neg (by simpa using hsomething)]
  cases hread : load storage verbose r with
  | mk lines result =>
    rw [hread] at hload
    cases hload
    dsimp only
    cases houtcome : checkAll verbose r ds with
    | mk later outcome =>
      rw [houtcome] at hcheck
      cases hcheck
      exact ⟨lines ++ later, rfl⟩

end Stages

/-- Results that can be written as a text end the check with a status that says
whether any of them has leaves. -/
theorem ending_conclude (hformat : r.format = none)
    (hwritable : ∀ path, r.output = some path → storage.checkWritable path = .ok ())
    (errors : List String) (results : List (Declaration × SignatureSet)) :
    (conclude storage r errors results).ending =
      .exit (if results.all (fun (_, leaves) => leaves.isEmpty) then 0 else 1) := by
  rw [conclude, hformat]
  dsimp only
  rw [deliver]
  cases houtput : r.output with
  | none => rfl
  | some path =>
    dsimp only
    rw [hwritable path houtput]

section Status

variable (hreadable : ∀ path ∈ r.paths, storage.IsReadable path)
include hreadable

/-- A request that is refused ends with status 2 and without output. -/
theorem check_of_isRefused (h : r.IsRefused storage) :
    (check storage verbose r).ending = .exit 2 ∧ (check storage verbose r).output = none := by
  have hloads : Loads (load storage verbose r).2 (r.Declares storage) := load_loads hreadable
  by_cases hnothing : r.interface = none ∧ r.paths = []
  · rw [check, if_pos (by simpa using hnothing)]
    exact ⟨rfl, rfl⟩
  · -- All texts are read before the first check, so an error in one of them decides.
    cases hload : (load storage verbose r).2 with
    | error e => exact check_of_load_error hnothing hload (hloads.isAboutText e hload)
    | ok ds =>
      have hds : r.Declares storage ds := (hloads.ok_iff ds).1 hload
      have hfails : ∃ d ∈ ds, d.Fails r.budget := by
        rcases h.resolve_left hnothing with hnone | ⟨ds', hds', hfails⟩
        · exact absurd ⟨ds, hds⟩ hnone
        · rw [(hloads.ok_iff ds').2 hds'] at hload
          cases hload
          exact hfails
      have hfailed : ∃ failed, (checkAll verbose r ds).2 = .error failed :=
        exists_checkAll_error hfails
      obtain ⟨failed, hfailed⟩ := hfailed
      exact check_of_checkAll_error hnothing hload hfailed

/-- Any other request for the text report ends with a status that says whether all
declarations are covered. -/
theorem check_of_not_isRefused (hformat : r.format = none)
    (hwritable : ∀ path, r.output = some path → storage.checkWritable path = .ok ())
    (h : ¬r.IsRefused storage) (hds : r.Declares storage ds) :
    ((check storage verbose r).ending = .exit 0 ↔ ∀ d ∈ ds, d.IsCovered) ∧
      ((check storage verbose r).ending = .exit 1 ↔ ¬∀ d ∈ ds, d.IsCovered) := by
  have hload : (load storage verbose r).2 = .ok ds := ((load_loads hreadable).ok_iff ds).2 hds
  have hfails : ∀ d ∈ ds, ¬d.Fails r.budget := fun d hd hd' =>
    h (.inr (.inr ⟨ds, hds, d, hd, hd'⟩))
  have hresults : ∃ results, (checkAll verbose r ds).2 = .ok results ∧
      (results.all (fun (_, leaves) => leaves.isEmpty) = true ↔ ∀ d ∈ ds, d.IsCovered) :=
    exists_checkAll_results hfails
  obtain ⟨results, hcheck, hall⟩ := hresults
  obtain ⟨lines, hlines⟩ := check_of_checkAll_ok (fun hnothing => h (.inl hnothing)) hload hcheck
  rw [hlines, ending_conclude hformat hwritable, ← hall]
  cases results.all fun (_, leaves) => leaves.isEmpty <;> simp

end Status

/-- The exit status of the check command. Implementations without an interface are
refused with the page that shows the usage. Any other request that is refused ends
with status 2 and writes nothing to standard output. Otherwise the status says
whether all tuples that the interfaces accept are covered: it is 0 if so, and 1 if
some declaration leaves a tuple uncovered. -/
theorem run_exit_status (storage : Storage) {c : Invocation} (h : c.IsProper)
    (hreadable : ∀ path ∈ c.files, storage.IsReadable path) :
    (c.interface = none ∧ c.implementations ≠ [] →
      (run storage c.arguments).ending = .exit 2 ∧
        (run storage c.arguments).output = some .usage) ∧
    (¬(c.interface = none ∧ c.implementations ≠ []) →
      (c.request.IsRefused storage →
        (run storage c.arguments).ending = .exit 2 ∧ (run storage c.arguments).output = none) ∧
      (¬c.request.IsRefused storage → ∀ ds, c.request.Declares storage ds →
        ((run storage c.arguments).ending = .exit 0 ↔ ∀ d ∈ ds, d.IsCovered) ∧
        ((run storage c.arguments).ending = .exit 1 ↔ ∃ d ∈ ds, ∃ tuple,
          d.interface.Accepts tuple ∧ Uncovered d.implementations tuple))) := by
  rw [run, Invocation.readRequest_arguments h]
  refine ⟨fun hlone => ?_, fun hlone => ?_⟩
  · rw [if_pos hlone]
    exact ⟨rfl, rfl⟩
  · rw [if_neg hlone]
    refine ⟨check_of_isRefused hreadable, fun hnot ds hds => ?_⟩
    have hwritable : ∀ path, c.request.output = some path →
        storage.checkWritable path = .ok () := fun path hpath => by cases hpath
    have hstatus : ((check storage false c.request).ending = .exit 0 ↔ ∀ d ∈ ds, d.IsCovered) ∧
        ((check storage false c.request).ending = .exit 1 ↔ ¬∀ d ∈ ds, d.IsCovered) :=
      check_of_not_isRefused hreadable rfl hwritable hnot hds
    refine ⟨hstatus.1, hstatus.2.trans ?_⟩
    simp only [not_forall, exists_prop, Declaration.not_isCovered_iff]

/-- An interface without positions, and an implementation of it. -/
def implemented : Declaration := ⟨none, ⟨[]⟩, [⟨[]⟩]⟩

/-- An interface without positions that has no implementation. -/
def unimplemented : Declaration := ⟨some ⟨"open", by decide⟩, ⟨[]⟩, []⟩

/-- A storage whose only file declares both. -/
def halfCovered : Storage :=
  .single "d" "interface ()\nimplementation ()\ninterface open ()\n"

/-- A check of the file that may take one round for each declaration. -/
def singleRound : Invocation := ⟨none, [], some "1", ["d"]⟩

/-- Both declarations of the file can be checked in one round. The second one leaves
the empty tuple uncovered, so the check ends with status 1. -/
theorem run_exit_status_singleRound :
    singleRound.arguments = ["check", "--max-rounds=1", "--", "d"] ∧
      (run halfCovered singleRound.arguments).ending = .exit 1 := by
  have hproper : singleRound.IsProper := by
    refine ⟨by decide, fun text htext => ?_⟩
    cases htext
    decide
  have hreadable : ∀ path ∈ singleRound.files, halfCovered.IsReadable path :=
    isReadable_single "d" _
  have hds : singleRound.request.Declares halfCovered [implemented, unimplemented] := by
    refine declares_single rfl rfl ?_
    rw [Vocabulary.readDeclarations, String.toList_ofList]
    simp only [String.reduceToList]
    rfl
  have harity : ∀ d ∈ [implemented, unimplemented], ∀ i ∈ d.implementations,
      i.arity = d.interface.arity := by decide
  have hrounds : ∀ d ∈ [implemented, unimplemented], d.check.rounds ≤ 1 := by decide +kernel
  have hfails : ∀ d ∈ [implemented, unimplemented], ¬d.Fails singleRound.request.budget := by
    refine fun d hd => Declaration.not_fails (harity d hd) fun b hb => ?_
    cases hb
    exact hrounds d hd
  have hlone : ¬(singleRound.interface = none ∧ singleRound.implementations ≠ []) :=
    fun h => h.2 rfl
  have hstatus := (run_exit_status _ hproper hreadable).2 hlone
  have hopen : ∃ d ∈ [implemented, unimplemented], ∃ tuple,
      d.interface.Accepts tuple ∧ Uncovered d.implementations tuple :=
    ⟨unimplemented, List.mem_cons_of_mem _ List.mem_cons_self, [], by decide,
      fun i hi => absurd hi List.not_mem_nil⟩
  have hnot := not_isRefused hreadable (.inr (by decide)) hds hfails
  exact ⟨by decide, (hstatus.2 hnot _ hds).2.2 hopen⟩

/-- A storage whose only file declares just the interface that is implemented. -/
def covered : Storage := .single "d" "interface ()\nimplementation ()\n"

/-- A check of the file that is given an implementation, but no interface. -/
def loneImplementation : Invocation := ⟨none, ["()"], none, ["d"]⟩

/-- All that the request declares is covered and could be checked, yet the program
refuses the implementation without an interface. It ends with status 2 instead of 0,
and writes to standard output how it is used. -/
theorem run_loneImplementation :
    loneImplementation.IsProper ∧
      loneImplementation.arguments = ["check", "-m", "()", "--", "d"] ∧
      (∀ path ∈ loneImplementation.files, covered.IsReadable path) ∧
      ¬loneImplementation.request.IsRefused covered ∧
      loneImplementation.request.Declares covered [implemented] ∧
      implemented.IsCovered ∧
      (run covered loneImplementation.arguments).ending = .exit 2 ∧
      (run covered loneImplementation.arguments).output = some .usage := by
  have hproper : loneImplementation.IsProper := ⟨by decide, fun text htext => by cases htext⟩
  have hreadable : ∀ path ∈ loneImplementation.files, covered.IsReadable path :=
    isReadable_single "d" _
  have hds : loneImplementation.request.Declares covered [implemented] := by
    refine declares_single rfl rfl ?_
    rw [Vocabulary.readDeclarations, String.toList_ofList]
    simp only [String.reduceToList]
    rfl
  have hfails : ∀ d ∈ [implemented], ¬d.Fails loneImplementation.request.budget := by
    intro d hd
    rw [List.mem_singleton.1 hd]
    exact Declaration.not_fails (by decide) fun b hb => by cases hb
  have hcovered : implemented.IsCovered := fun tuple htuple =>
    ⟨_, List.mem_singleton_self _, htuple⟩
  have hnot := not_isRefused hreadable (.inr (by decide)) hds hfails
  refine ⟨hproper, by decide, hreadable, hnot, hds, hcovered, ?_⟩
  rw [run, Invocation.readRequest_arguments hproper, if_pos (by decide)]
  exact ⟨rfl, rfl⟩

end Command

end DispatchCoverage

import DispatchCoverage.Proofs.ExitStatus
import DispatchCoverage.Proofs.PlainAddresses

/-!
# How a run ends

Every run that is given files that exist and that writes to standard output ends with
a status, apart from two kinds of runs of the check command that break off. One meets
a file that is no UTF-8 when everything in front of it could be read. The other one has
checked all declarations and is to write the outcome in a form that brackets addresses,
but one of the names has a character that is forbidden there. A run that ends with
status 2 has reported why.
-/

namespace DispatchCoverage.Command

variable {storage : Storage} {verbose : Bool} {r : CheckRequest} {ds : List Declaration}
  {path : String}

/-! ## Files that are no text -/

/-- A file is there, whatever it holds. -/
def Storage.HasFile (storage : Storage) (path : String) : Prop :=
  ∃ bytes, storage.read path = .ok bytes

/-- A file is there whose bytes are no UTF-8. -/
def Storage.IsUndecodable (storage : Storage) (path : String) : Prop :=
  ∃ bytes, storage.read path = .ok bytes ∧ decode? bytes = none

/-- A file whose bytes are no UTF-8 cannot be read. -/
theorem Storage.IsUndecodable.not_isReadable (h : storage.IsUndecodable path) :
    ¬storage.IsReadable path := by
  obtain ⟨bytes, hbytes, hnone⟩ := h
  rintro ⟨bytes', text, hbytes', htext⟩
  rw [hbytes] at hbytes'
  cases hbytes'
  rw [hnone] at htext
  cases htext

/-- Reading a file whose bytes are no UTF-8 fails for its encoding. -/
theorem loadFile_of_isUndecodable (h : storage.IsUndecodable path) :
    loadFile storage path = .error .encoding := by
  obtain ⟨bytes, hbytes, hnone⟩ := h
  rw [loadFile, hbytes]
  simp only [bind, Except.bind, Except.mapError, hnone]

/-- Files that exist can all be read, or there is a first one whose bytes are no
UTF-8. -/
theorem exists_first_isUndecodable {paths : List String}
    (h : ∀ path ∈ paths, storage.HasFile path) :
    (∀ path ∈ paths, storage.IsReadable path) ∨
      ∃ before path after, paths = before ++ path :: after ∧
        (∀ earlier ∈ before, storage.IsReadable earlier) ∧ storage.IsUndecodable path := by
  induction paths with
  | nil => exact .inl fun _ hpath => absurd hpath List.not_mem_nil
  | cons path paths ih =>
    obtain ⟨⟨bytes, hbytes⟩, hpaths⟩ := List.forall_mem_cons.1 h
    cases htext : decode? bytes with
    | none => exact .inr ⟨[], path, paths, rfl, by simp, bytes, hbytes, htext⟩
    | some text =>
      have hpath : storage.IsReadable path := ⟨bytes, text, hbytes, htext⟩
      rcases ih hpaths with hall | ⟨before, first, after, rfl, hbefore, hfirst⟩
      · exact .inl (List.forall_mem_cons.2 ⟨hpath, hall⟩)
      · exact .inr ⟨path :: before, first, after, rfl,
          List.forall_mem_cons.2 ⟨hpath, hbefore⟩, hfirst⟩

/-- Files are read up to one whose bytes are no UTF-8. -/
theorem loadFiles_isUndecodable (h : storage.IsUndecodable path) (before after : List String) :
    (loadFiles storage verbose (before ++ path :: after)).2 =
      (loadFiles storage verbose before).2.bind fun _ => .error .encoding := by
  induction before with
  | nil =>
    rw [List.nil_append, loadFiles_cons, loadFile_of_isUndecodable h]
    rfl
  | cons earlier before ih =>
    rw [List.cons_append, loadFiles_cons, loadFiles_cons, ih]
    cases loadFile storage earlier with
    | error e => rfl
    | ok declared => cases (loadFiles storage verbose before).2 <;> rfl

/-- Declarations are read up to a file whose bytes are no UTF-8. -/
theorem load_isUndecodable {before after : List String}
    (hpaths : r.paths = before ++ path :: after) (h : storage.IsUndecodable path) :
    (load storage verbose r).2 =
      (load storage verbose { r with paths := before }).2.bind fun _ => .error .encoding := by
  have hgiven : ({ r with paths := before } : CheckRequest).given = r.given := rfl
  rw [load_eq, load_eq, hgiven, hpaths, loadFiles_isUndecodable h]
  cases r.given with
  | error e => rfl
  | ok given => cases (loadFiles storage verbose before).2 <;> rfl

/-- A file whose text declares something can be read. -/
theorem Storage.FileDeclares.isReadable (h : storage.FileDeclares path ds) :
    storage.IsReadable path := by
  obtain ⟨bytes, text, hbytes, htext, _⟩ := h
  exact ⟨bytes, text, hbytes, htext⟩

/-- A request that declares something has files that can be read. -/
theorem CheckRequest.Declares.isReadable (h : r.Declares storage ds) :
    ∀ path ∈ r.paths, storage.IsReadable path := by
  obtain ⟨_, groups, _, hgroups, _⟩ := h
  have hread : List.Forall₂ (fun path declared => storage.IsReadable path ∧
      storage.FileDeclares path declared) r.paths groups :=
    hgroups.imp fun _ _ hfile => ⟨hfile.isReadable, hfile⟩
  exact ((List.forall₂_and_left _ _).1 hread).1

/-- A request that names nothing to check declares nothing. -/
theorem CheckRequest.Declares.eq_nil (h : r.Declares storage ds)
    (hnothing : r.interface = none ∧ r.paths = []) : ds = [] := by
  obtain ⟨given, groups, hgiven, hgroups, rfl⟩ := h
  rw [SwitchesDeclare, hnothing.1] at hgiven
  rw [hnothing.2, List.forall₂_nil_left_iff] at hgroups
  rw [hgiven, hgroups]
  rfl

/-! ## Names that cannot be written -/

/-- The results of several declarations are listed with them. -/
theorem map_fst_of_checkAll {results : List (Declaration × SignatureSet)}
    (h : (checkAll verbose r ds).2 = .ok results) : results.map Prod.fst = ds := by
  induction ds generalizing results with
  | nil =>
    cases h
    rfl
  | cons d ds ih =>
    rw [checkAll_cons] at h
    cases hd : (d.check r.budget r.strict).result with
    | error e =>
      rw [hd] at h
      cases h
    | ok leaves =>
      rw [hd] at h
      obtain ⟨later, hlater, rfl⟩ := map_eq_ok_iff.1 h
      rw [List.map_cons, ih hlater]

/-- Declarations that can all be checked have results, which are listed with them. -/
theorem exists_checkAll_ok (verbose : Bool) (h : ∀ d ∈ ds, ¬d.Fails r.budget) :
    ∃ results, (checkAll verbose r ds).2 = .ok results ∧ results.map Prod.fst = ds := by
  obtain ⟨results, hcheck, _⟩ := @exists_checkAll_results verbose r ds h
  exact ⟨results, hcheck, map_fst_of_checkAll hcheck⟩

/-- The outcomes of some checks can be expressed in a form exactly if the form does not
bracket addresses, or no name has a character that is forbidden there. -/
theorem expressible_graphOf_iff {format : Format} {results : List (Declaration × SignatureSet)}
    (h : results.map Prod.fst = ds) :
    (graphOf results).expressible format = true ↔ (format.bracketsAddresses = true →
      ∀ d ∈ ds, ∀ n, d.name = some n → ∀ c ∈ n.text.toList, c ∉ forbiddenInAddress) := by
  rw [graphOf_eq, CoverageGraph.expressible_addRecords_iff, ← h]
  simp only [List.forall_mem_map]
  rfl

/-! ## Statuses -/

/-- The status that says whether any result has leaves. -/
def statusOf (results : List (Declaration × SignatureSet)) : Nat :=
  if results.all (fun (_, leaves) => leaves.isEmpty) then 0 else 1

/-- There are only two such statuses. -/
theorem statusOf_lt_two (results : List (Declaration × SignatureSet)) : statusOf results < 2 := by
  unfold statusOf
  split <;> decide

/-- Results are written as a text, or in a form that can express them. -/
theorem conclude_eq (storage : Storage) (r : CheckRequest) (errors : List String)
    (results : List (Declaration × SignatureSet)) :
    conclude storage r errors results =
      match r.format with
      | none => deliver storage r errors (.text (Report.text results)) (statusOf results)
      | some format =>
        if (graphOf results).expressible format then
          deliver storage r errors (.graph (graphOf results) format) (statusOf results)
        else { ending := .inexpressible, errors } := rfl

/-- Results that can be written to standard output end a run with their status. -/
theorem ending_conclude_expressible (houtput : r.output = none) (errors : List String)
    {results : List (Declaration × SignatureSet)}
    (h : ∀ format, r.format = some format → (graphOf results).expressible format = true) :
    (conclude storage r errors results).ending = .exit (statusOf results) := by
  rw [conclude_eq]
  cases hformat : r.format with
  | none => simp only [deliver, houtput]
  | some format => simp only [h format hformat, if_true, deliver, houtput]

/-- Results that cannot be written end a run without a status. -/
theorem ending_conclude_inexpressible {format : Format} (hformat : r.format = some format)
    (errors : List String) {results : List (Declaration × SignatureSet)}
    (h : (graphOf results).expressible format = false) :
    (conclude storage r errors results).ending = .inexpressible := by
  rw [conclude_eq, hformat]
  simp only [h, Bool.false_eq_true, if_false]

/-- Results never end a run with status 2. -/
theorem ending_conclude_ne_two (errors : List String)
    (results : List (Declaration × SignatureSet)) :
    (conclude storage r errors results).ending ≠ .exit 2 := by
  have hstatus : Ending.exit (statusOf results) ≠ .exit 2 := fun heq =>
    Nat.ne_of_lt (statusOf_lt_two results) (Ending.exit.inj heq)
  have hdeliver : ∀ page,
      (deliver storage r errors page (statusOf results)).ending ≠ .exit 2 := by
    intro page
    rw [deliver]
    split
    · exact hstatus
    · split
      · intro heq
        cases heq
      · exact hstatus
  rw [conclude_eq]
  split
  · exact hdeliver _
  · split
    · exact hdeliver _
    · intro heq
      cases heq

/-- A check that ends with status 2 has reported why. -/
theorem errors_ne_nil (h : (check storage verbose r).ending = .exit 2) :
    (check storage verbose r).errors ≠ [] := by
  have hfailure : ∀ errors heading message, (failure errors heading message).errors ≠ [] :=
    fun _ _ _ => List.append_ne_nil_of_right_ne_nil _ (List.cons_ne_nil _ _)
  revert h
  rw [check]
  split
  · exact fun _ => List.cons_ne_nil _ _
  · split
    · exact fun _ => hfailure _ _ _
    · exact fun _ => hfailure _ _ _
    · intro h
      cases h
    · exact fun _ => hfailure _ _ _
    · intro h
      cases h
    · split
      · exact fun _ => hfailure _ _ _
      · exact fun h => absurd h (ending_conclude_ne_two _ _)

/-! ## Breaking off -/

/-- A request whose check ends without a status. -/
inductive CheckRequest.BreaksOff (storage : Storage) (r : CheckRequest) : Ending → Prop where
  /-- A file is no UTF-8, and all that is read before it declares something. -/
  | undecodable {before after : List String} {path : String} {ds : List Declaration} :
    r.paths = before ++ path :: after →
    ({ r with paths := before } : CheckRequest).Declares storage ds →
    storage.IsUndecodable path → BreaksOff storage r .undecodable
  /-- All checks have results, which are to be written in a form that brackets addresses,
  and a name has a character that is forbidden there. -/
  | inexpressible {ds : List Declaration} {d : Declaration} {n : Name} {format : Format}
    {c : Char} :
    r.Declares storage ds → (∀ d ∈ ds, ¬d.Fails r.budget) → r.format = some format →
    format.bracketsAddresses = true → d ∈ ds → d.name = some n → c ∈ n.text.toList →
    c ∈ forbiddenInAddress → BreaksOff storage r .inexpressible

/-- Reading that fails for an encoding ends a check without a status. -/
theorem ending_of_encoding (hpaths : r.paths ≠ [])
    (hload : (load storage verbose r).2 = .error .encoding) :
    (check storage verbose r).ending = .undecodable := by
  rw [check, if_neg (by simp [hpaths])]
  cases hread : load storage verbose r with
  | mk lines result =>
    rw [hread] at hload
    cases hload
    rfl

/-- A check that breaks off ends that way. -/
theorem ending_of_breaksOff {ending : Ending} (h : r.BreaksOff storage ending) :
    (check storage verbose r).ending = ending := by
  cases h with
  | @undecodable before after path ds hpaths hds hfile =>
    have hbefore : (load storage verbose { r with paths := before }).2 = .ok ds :=
      ((load_loads hds.isReadable).ok_iff ds).2 hds
    refine ending_of_encoding (by simp [hpaths]) ?_
    rw [load_isUndecodable hpaths hfile, hbefore]
    rfl
  | @inexpressible ds d n format c hds hfails hformat hbrackets hd hn hc hforbidden =>
    have hload : (load storage verbose r).2 = .ok ds :=
      ((load_loads hds.isReadable).ok_iff ds).2 hds
    have hsomething : ¬(r.interface = none ∧ r.paths = []) := fun hnothing =>
      List.ne_nil_of_mem hd (hds.eq_nil hnothing)
    obtain ⟨results, hcheck, hfst⟩ := exists_checkAll_ok verbose hfails
    obtain ⟨lines, hlines⟩ := check_of_checkAll_ok hsomething hload hcheck
    have hwritten : (graphOf results).expressible format = false := by
      rw [Bool.eq_false_iff, ne_eq, expressible_graphOf_iff hfst]
      exact fun hplain => hplain hbrackets d hd n hn c hc hforbidden
    rw [hlines, ending_conclude_inexpressible hformat lines hwritten]

/-- A check that comes to a file that is no UTF-8 breaks off there, or what is in front
of the file is refused. -/
theorem breaksOff_or_exit_two {before after : List String}
    (hpaths : r.paths = before ++ path :: after)
    (hbefore : ∀ earlier ∈ before, storage.IsReadable earlier)
    (hfile : storage.IsUndecodable path) :
    (∃ ending, r.BreaksOff storage ending) ∨ (check storage verbose r).ending = .exit 2 := by
  have hloads : Loads (load storage verbose { r with paths := before }).2
      (CheckRequest.Declares storage { r with paths := before }) := load_loads hbefore
  cases hload : (load storage verbose { r with paths := before }).2 with
  | ok ds => exact .inl ⟨_, .undecodable hpaths ((hloads.ok_iff ds).1 hload) hfile⟩
  | error e =>
    have hall : (load storage verbose r).2 = .error e := by
      rw [load_isUndecodable hpaths hfile, hload]
      rfl
    have hsomething : ¬(r.interface = none ∧ r.paths = []) := by simp [hpaths]
    exact .inr (check_of_load_error hsomething hall (hloads.isAboutText e hload)).1

/-- A check that is not refused and does not break off ends with status 0 or 1. -/
theorem exists_status_of_not_isRefused (houtput : r.output = none)
    (hreadable : ∀ path ∈ r.paths, storage.IsReadable path) (hrefused : ¬r.IsRefused storage)
    (h : ¬∃ ending, r.BreaksOff storage ending) :
    ∃ status < 2, (check storage verbose r).ending = .exit status := by
  obtain ⟨ds, hds⟩ := not_not.1 fun hnone => hrefused (.inr (.inl hnone))
  have hfails : ∀ d ∈ ds, ¬d.Fails r.budget := fun d hd hd' =>
    hrefused (.inr (.inr ⟨ds, hds, d, hd, hd'⟩))
  have hload : (load storage verbose r).2 = .ok ds :=
    ((load_loads hreadable).ok_iff ds).2 hds
  obtain ⟨results, hcheck, hfst⟩ := exists_checkAll_ok verbose hfails
  obtain ⟨lines, hlines⟩ := check_of_checkAll_ok (fun hnothing => hrefused (.inl hnothing))
    hload hcheck
  have hwritten : ∀ format, r.format = some format →
      (graphOf results).expressible format = true := by
    intro format hformat
    rw [expressible_graphOf_iff hfst]
    exact fun hbrackets d hd n hn c hc hforbidden => h ⟨_, .inexpressible hds hfails hformat
      hbrackets hd hn hc hforbidden⟩
  refine ⟨statusOf results, statusOf_lt_two results, ?_⟩
  rw [hlines, ending_conclude_expressible houtput lines hwritten]

/-- A check of files that exist, which does not break off, ends with one of three
statuses. The last one is for requests that are refused. -/
theorem exists_status (houtput : r.output = none)
    (hfiles : ∀ path ∈ r.paths, storage.HasFile path)
    (h : ¬∃ ending, r.BreaksOff storage ending) :
    ∃ status ≤ 2, (check storage verbose r).ending = .exit status ∧
      (status = 2 ↔ r.IsRefused storage) := by
  have hexit : r.IsRefused storage → (check storage verbose r).ending = .exit 2 →
      ∃ status ≤ 2, (check storage verbose r).ending = .exit status ∧
        (status = 2 ↔ r.IsRefused storage) := fun hrefused hending =>
    ⟨2, Nat.le_refl 2, hending, fun _ => hrefused, fun _ => rfl⟩
  rcases exists_first_isUndecodable hfiles with hall | ⟨before, path, after, hpaths, hbefore, hfile⟩
  · by_cases hrefused : r.IsRefused storage
    · exact hexit hrefused (check_of_isRefused hall hrefused).1
    · obtain ⟨status, hlt, hstatus⟩ := exists_status_of_not_isRefused houtput hall hrefused h
      exact ⟨status, Nat.le_of_lt hlt, hstatus, fun htwo => absurd htwo (Nat.ne_of_lt hlt),
        fun hrefused' => absurd hrefused' hrefused⟩
  · have hrefused : r.IsRefused storage := by
      refine .inr (.inl ?_)
      rintro ⟨ds, hds⟩
      exact hfile.not_isReadable (hds.isReadable path (by simp [hpaths]))
    exact hexit hrefused ((breaksOff_or_exit_two hpaths hbefore hfile).resolve_left h)

/-- A request is for a check, or it is answered with one of three statuses whatever the
files hold. -/
def Request.ChecksOrExits (request : Request) : Prop :=
  (∃ verbose r, request = .check verbose r) ∨
    ∃ status ≤ 2, ∀ storage, (request.run storage).ending = .exit status

/-- The arguments of the check command ask for a check, or they are answered. -/
theorem readCheck_checksOrExits (verbose : Bool) (argv : List String) :
    (readCheck verbose argv).ChecksOrExits := by
  unfold readCheck
  repeat' split
  · exact .inr ⟨2, by decide, fun _ => rfl⟩
  · exact .inr ⟨0, by decide, fun _ => rfl⟩
  · exact .inr ⟨0, by decide, fun _ => rfl⟩
  · exact .inr ⟨0, by decide, fun _ => rfl⟩
  · exact .inr ⟨2, by decide, fun _ => rfl⟩
  · exact .inl ⟨verbose, _, rfl⟩

/-- The arguments of the program ask for a check, or they are answered. -/
theorem readRequest_checksOrExits (argv : List String) : (readRequest argv).ChecksOrExits := by
  unfold readRequest
  repeat' split
  · exact .inr ⟨2, by decide, fun _ => rfl⟩
  · exact .inr ⟨0, by decide, fun _ => rfl⟩
  · exact .inr ⟨0, by decide, fun _ => rfl⟩
  · exact .inr ⟨0, by decide, fun _ => rfl⟩
  · exact .inr ⟨1, by decide, fun _ => rfl⟩
  · exact .inr ⟨1, by decide, fun _ => rfl⟩
  · exact readCheck_checksOrExits _ _

/-- How every run ends. A check of files that exist, which writes to standard output,
may break off: at a file that is no UTF-8, or at a name that its form cannot write. If
it does not, it ends with status 0, 1 or 2, where 2 is for requests that are refused and
comes with a report. Arguments that ask for no check are answered with such a status in
any case. -/
theorem run_exits_or_breaksOff (storage : Storage) (argv : List String) :
    (∀ verbose r, readRequest argv = .check verbose r → r.output = none →
      (∀ path ∈ r.paths, storage.HasFile path) →
      (∀ ending, r.BreaksOff storage ending → (run storage argv).ending = ending) ∧
      ((¬∃ ending, r.BreaksOff storage ending) →
        ∃ status ≤ 2, (run storage argv).ending = .exit status ∧
          (status = 2 ↔ r.IsRefused storage) ∧ (status = 2 → (run storage argv).errors ≠ []))) ∧
    ((∀ verbose r, readRequest argv ≠ .check verbose r) →
      ∃ status ≤ 2, (run storage argv).ending = .exit status) := by
  refine ⟨fun verbose r hread houtput hfiles => ?_, fun hother => ?_⟩
  · have hrun : run storage argv = check storage verbose r := by
      rw [run, hread]
      rfl
    rw [hrun]
    refine ⟨fun ending => ending_of_breaksOff, fun h => ?_⟩
    obtain ⟨status, hle, hstatus, hrefused⟩ := exists_status houtput hfiles h
    refine ⟨status, hle, hstatus, hrefused, ?_⟩
    rintro rfl
    exact errors_ne_nil hstatus
  · rcases readRequest_checksOrExits argv with ⟨verbose, r, hread⟩ | ⟨status, hle, hstatus⟩
    · exact absurd hread (hother verbose r)
    · exact ⟨status, hle, hstatus storage⟩

/-- A storage whose only file declares an interface with a bracket in its name. -/
def bracketedName : Storage := .single "d" "interface f<g ()\nimplementation ()\n"

/-- What the file declares. -/
def bracketed : Declaration := ⟨some ⟨"f<g", by decide⟩, ⟨[]⟩, [⟨[]⟩]⟩

/-- A check of the file, with the outcome in a form. -/
def fileCheck (format : Option Format) : CheckRequest := ⟨none, [], format, none, none, true, ["d"]⟩

/-- The file can be read. -/
theorem declares_bracketed (format : Option Format) :
    (fileCheck format).Declares bracketedName [bracketed] := by
  refine declares_single rfl rfl ?_
  rw [Vocabulary.readDeclarations, String.toList_ofList]
  simp only [String.reduceToList]
  rfl

/-- The declaration can be checked. -/
theorem not_fails_bracketed : ∀ d ∈ [bracketed], ¬d.Fails none := by
  intro d hd
  rw [List.mem_singleton.1 hd]
  exact Declaration.not_fails (by decide) fun b hb => by cases hb

/-- A check of the file breaks off if the form brackets addresses. -/
theorem breaksOff_bracketed {format : Format} (h : format.bracketsAddresses = true) :
    (fileCheck (some format)).BreaksOff bracketedName .inexpressible := by
  have hbracket : '<' ∈ "f<g".toList ∧ '<' ∈ forbiddenInAddress := by decide
  exact .inexpressible (declares_bracketed _) not_fails_bracketed rfl h
    (List.mem_singleton_self _) rfl hbracket.1 hbracket.2

/-- The program breaks off when it is to write the name in N-Triples. In RDF/XML it can
write it, and ends with a status that says what the check has found. -/
theorem run_exits_or_breaksOff_bracketed :
    (run bracketedName ["check", "-t", "nt", "--", "d"]).ending = .inexpressible ∧
      ∃ status < 2,
        (run bracketedName ["check", "-t", "xml", "--", "d"]).ending = .exit status := by
  have hreadable : ∀ path ∈ ["d"], bracketedName.IsReadable path := isReadable_single "d" _
  have hfiles : ∀ path ∈ ["d"], bracketedName.HasFile path := by
    intro path hpath
    rw [List.mem_singleton.1 hpath]
    exact ⟨_, read_single "d" _⟩
  have hread : ∀ name format, Switch.formNamed? name = some format →
      readRequest ["check", "-t", name, "--", "d"] = .check false (fileCheck format) :=
    fun name format hname => readRequest_form hname ["d"]
  have hlines := hread "nt" (some .nTriples) (by decide)
  have hmarkup := hread "xml" (some .xml) (by decide)
  have hwhole : ¬∃ ending, (fileCheck (some .xml)).BreaksOff bracketedName ending := by
    rintro ⟨_, hbreaks⟩
    cases hbreaks with
    | @undecodable before after path _ hpaths _ hfile =>
      have hmem : path ∈ (fileCheck (some .xml)).paths := by simp [hpaths]
      exact hfile.not_isReadable (hreadable path hmem)
    | inexpressible _ _ hformat hbrackets =>
      cases hformat
      cases hbrackets
  have hnot : ¬(fileCheck (some .xml)).IsRefused bracketedName :=
    not_isRefused hreadable (.inr (List.cons_ne_nil _ _)) (declares_bracketed _)
      not_fails_bracketed
  have hbroken := ((run_exits_or_breaksOff bracketedName _).1 false _ hlines rfl hfiles).1
  obtain ⟨status, hle, hstatus, hrefused, _⟩ :=
    ((run_exits_or_breaksOff bracketedName _).1 false _ hmarkup rfl hfiles).2 hwhole
  have hne : status ≠ 2 := fun htwo => hnot (hrefused.1 htwo)
  exact ⟨hbroken _ (breaksOff_bracketed rfl), status, by omega, hstatus⟩

/-- A storage that has a byte which begins no character at every path. -/
def strayByte : Storage where
  bytes _ := .ok ⟨#[0xFF]⟩
  checkWritable _ := .ok ()

/-- Both files exist, and the second one can be read and checked, yet neither of the two
runs ends with a status. -/
theorem run_without_status :
    strayByte.HasFile "d" ∧
      (run strayByte ["check", "-t", "text", "--", "d"]).ending = .undecodable ∧
      bracketedName.HasFile "d" ∧
      (run bracketedName ["check", "-t", "ttl", "--", "d"]).ending = .inexpressible := by
  have hstray : strayByte.IsUndecodable "d" := ⟨_, rfl, by decide⟩
  have hnothing : (fileCheck none).paths = [] ++ "d" :: [] := rfl
  have hdeclares : ({ fileCheck none with paths := [] } : CheckRequest).Declares strayByte [] :=
    ⟨[], [], rfl, .nil, rfl⟩
  have htext : Switch.formNamed? "text" = some none := by decide
  have hturtle : Switch.formNamed? "ttl" = some (some .turtle) := by decide
  refine ⟨⟨_, rfl⟩, ?_, ⟨_, read_single "d" _⟩, ?_⟩
  · rw [run, readRequest_form htext]
    exact ending_of_breaksOff (.undecodable hnothing hdeclares hstray)
  · rw [run, readRequest_form hturtle]
    exact ending_of_breaksOff (breaksOff_bracketed rfl)

end DispatchCoverage.Command

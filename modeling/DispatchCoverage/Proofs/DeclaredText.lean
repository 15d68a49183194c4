import Mathlib.Data.List.TakeWhile
import DispatchCoverage.Proofs.ExitStatus
import DispatchCoverage.Proofs.Spelling

/-!
# Declarations by switches and by lines

An interface and its implementations can be given by switches, or written out
on lines of a file, behind the word for an interface or for an implementation.
A line is stripped of its comment and of the blanks at its ends, and its word ends
at the first space. Neither changes the tokens of a text without comment. So both
ways declare the same, or are refused for the same implementation and with the
same error.
-/

namespace DispatchCoverage

namespace Surface

variable {v : Vocabulary}

section Line

variable {word text : String} (hne : word ≠ "")
  (hword : word.toList.all (fun c => c != '#' && !Text.isBlank c) = true)
  (htext : '#' ∉ text.toList)
include hne hword htext

/-- A line with a word in front of a space and a text without comment is the word, the
space and the text without the blanks at its end. If the text is blank, only the word is
left of the line. -/
theorem statement_line {core blanks : List Char} (hcore : text.toList = core ++ blanks)
    (hlast : ∀ c ∈ core.getLast?, Text.isBlank c = false)
    (hblanks : ∀ c ∈ blanks, Text.isBlank c = true) :
    statement (word ++ " " ++ text).toList =
      word.toList ++ if core = [] then [] else ' ' :: core := by
  have hplain : ∀ c ∈ word.toList, c ≠ '#' ∧ Text.isBlank c = false := by
    simpa only [List.all_eq_true, Bool.and_eq_true, bne_iff_ne, Bool.not_eq_true'] using hword
  have hline : (word ++ " " ++ text).toList = word.toList ++ ' ' :: text.toList := by
    simp [String.toList_append]
  have hcomment : ∀ c ∈ word.toList ++ ' ' :: text.toList, decide (c ≠ '#') = true := by
    intro c hc
    refine decide_eq_true fun heq => ?_
    subst heq
    rcases List.mem_append.1 hc with hc | hc
    · exact (hplain '#' hc).1 rfl
    · exact htext ((List.mem_cons.1 hc).resolve_left (by decide))
  have hfirst : ∀ later, ∀ c ∈ (word.toList ++ later).head?, Text.isBlank c = false := by
    intro later c hc
    have hchars : word.toList ≠ [] := fun hnil => hne (String.toList_eq_nil_iff.1 hnil)
    rw [List.head?_append_of_ne_nil _ hchars] at hc
    exact (hplain c (List.mem_of_mem_head? hc)).2
  rw [statement, hline, List.takeWhile_eq_self_iff.2 hcomment, hcore]
  by_cases hnil : core = []
  · have hblank : ∀ c ∈ ' ' :: blanks, Text.isBlank c = true :=
      List.forall_mem_cons.2 ⟨by decide, hblanks⟩
    rw [if_pos hnil, hnil, List.nil_append, Text.trim_append hblank, List.append_nil]
    refine Text.trim_eq_self (by simpa using hfirst []) fun c hc => ?_
    exact (hplain c (List.mem_of_mem_getLast? hc)).2
  · rw [if_neg hnil, ← List.cons_append, ← List.append_assoc, Text.trim_append hblanks]
    refine Text.trim_eq_self (hfirst _) fun c hc => hlast c ?_
    rwa [List.getLast?_append_of_ne_nil _ (List.cons_ne_nil _ _),
      List.getLast?_cons_of_ne_nil hnil] at hc

/-- Such a line begins with the word, and what stands behind the space has the tokens
of the text. -/
theorem keyword_line : lineKeyword (word ++ " " ++ text) = word ∧
    tokenize (lineOperand (word ++ " " ++ text)) = tokenize text := by
  have hspace : ∀ c ∈ word.toList, decide (c ≠ ' ') = true := by
    intro c hc
    refine decide_eq_true fun heq => ?_
    have hplain := List.all_eq_true.1 hword c hc
    rw [heq] at hplain
    exact absurd hplain (by decide)
  obtain ⟨core, blanks, hcore, hlast, hblanks⟩ := Text.exists_append_blanks text.toList
  rw [lineKeyword, lineOperand, keyword, operand,
    statement_line hne hword htext hcore hlast hblanks, tokenize_eq, tokenize_eq, hcore,
    tokensOf_append_blanks hblanks, String.toList_ofList, List.takeWhile_append_of_pos hspace,
    List.dropWhile_append_of_pos hspace]
  by_cases hnil : core = []
  · simp [hnil]
  · simp [hnil]

end Line

/-- The line that declares an interface. -/
def interfaceLine (text : String) : String := "interface" ++ " " ++ text

/-- The line that declares an implementation. -/
def implementationLine (text : String) : String := "implementation" ++ " " ++ text

/-- An interface and its implementations, written out on lines. -/
def writtenOut (interface : String) (implementations : List String) : Block :=
  ⟨interfaceLine interface, implementations.map implementationLine⟩

/-- The line of an interface declares what its text is read as, without a name. -/
theorem declaresInterface_interfaceLine {text : String} {s : Signature}
    (hcomment : '#' ∉ text.toList) (h : v.readSignature text = .ok s) :
    DeclaresInterface v (interfaceLine text) ⟨none, s, []⟩ := by
  have hne : "interface" ≠ "" := by decide
  obtain ⟨hkeyword, htokens⟩ := keyword_line hne (by decide) hcomment
  exact ⟨hkeyword, readInterface_unnamed ((readSignature_congr htokens).trans h)⟩

/-- The line of an implementation begins with the word for one, and what follows is
read as its text is. -/
theorem implementationLine_reads {text : String} (hcomment : '#' ∉ text.toList) :
    HasImplementationKeyword (implementationLine text) ∧
      v.readSignature (lineOperand (implementationLine text)) = v.readSignature text := by
  have hne : "implementation" ≠ "" := by decide
  obtain ⟨hkeyword, htokens⟩ := keyword_line hne (by decide) hcomment
  exact ⟨.inl hkeyword, readSignature_congr htokens⟩

/-- The lines of implementations declare what their texts are read as. -/
theorem declaresImplementations_lines {texts : List String} {is : List Signature}
    (hcomment : ∀ text ∈ texts, '#' ∉ text.toList)
    (h : List.Forall₂ (fun text i => v.readSignature text = .ok i) texts is) :
    DeclaresImplementations v (texts.map implementationLine) is := by
  induction h with
  | nil => exact .nil
  | cons hread _ ih =>
    obtain ⟨hfirst, hlater⟩ := List.forall_mem_cons.1 hcomment
    obtain ⟨hkeyword, hoperand⟩ := implementationLine_reads hfirst
    exact .cons ⟨hkeyword, hoperand.trans hread⟩ (ih hlater)

/-- Texts without line breaks are written out without them. -/
theorem isOneLine_writtenOut {interface : String} {texts : List String}
    (h : ∀ text ∈ interface :: texts, Text.IsOneLine text.toList) :
    ∀ line ∈ (writtenOut interface texts).lines, Text.IsOneLine line.toList := by
  have hline : ∀ word text : String, Text.IsOneLine (word ++ " ").toList →
      Text.IsOneLine text.toList → Text.IsOneLine (word ++ " " ++ text).toList := by
    intro word text hword htext
    rw [String.toList_append]
    exact hword.append htext
  obtain ⟨hinterface, htexts⟩ := List.forall_mem_cons.1 h
  refine List.forall_mem_cons.2 ⟨hline _ _ (by decide) hinterface, fun line hmem => ?_⟩
  obtain ⟨text, htext, rfl⟩ := List.mem_map.1 hmem
  exact hline _ _ (by decide) (htexts text htext)

section WrittenOut

variable {interface : String} {s : Signature}
  (hinterface : '#' ∉ interface.toList) (hread : v.readSignature interface = .ok s)
include hinterface hread

/-- An interface and implementations that are written out declare what their texts
are read as. -/
theorem writtenOut_declares {texts : List String} {is : List Signature}
    (hcomment : ∀ text ∈ texts, '#' ∉ text.toList)
    (h : List.Forall₂ (fun text i => v.readSignature text = .ok i) texts is) :
    (writtenOut interface texts).Declares v ⟨none, s, is⟩ :=
  ⟨declaresInterface_interfaceLine hinterface hread, declaresImplementations_lines hcomment h⟩

/-- Lines that are written out are read if all texts are. -/
theorem readLines_writtenOut {texts : List String} {is : List Signature}
    (hcomment : ∀ text ∈ texts, '#' ∉ text.toList)
    (h : List.Forall₂ (fun text i => v.readSignature text = .ok i) texts is) :
    v.readLines (writtenOut interface texts).lines = .ok [⟨none, s, is⟩] := by
  have hdeclares := writtenOut_declares hinterface hread hcomment h
  rw [readLines_eq, declareLines_block hdeclares]
  rfl

/-- Otherwise they are refused at the line of the first text that is not read, with
its error. -/
theorem readLines_writtenOut_error {before after : List String} {text : String}
    {is : List Signature} {cause : ParseError}
    (hcomment : ∀ text' ∈ before ++ text :: after, '#' ∉ text'.toList)
    (h : List.Forall₂ (fun text i => v.readSignature text = .ok i) before is)
    (hcause : v.readSignature text = .error cause) :
    v.readLines (writtenOut interface (before ++ text :: after)).lines = .error
      ⟨before.length + 2, String.ofList (statement (implementationLine text).toList), cause⟩ := by
  obtain ⟨hbefore, hlater⟩ := List.forall_mem_append.1 hcomment
  obtain ⟨htext, _⟩ := List.forall_mem_cons.1 hlater
  have hdeclares := writtenOut_declares hinterface hread hbefore h
  have htaken : declareLines v 1 [] (writtenOut interface before).lines =
      .ok [⟨none, s, is⟩] := declareLines_block hdeclares 1 []
  have hrefused : declareLine v [⟨none, s, is⟩] (implementationLine text) = .error cause := by
    obtain ⟨hkeyword, hoperand⟩ := implementationLine_reads (v := v) htext
    rw [declareLine_implementation hkeyword, hoperand, hcause]
    rfl
  have hlines : (writtenOut interface (before ++ text :: after)).lines =
      (writtenOut interface before).lines ++
        implementationLine text :: after.map implementationLine := by
    simp [writtenOut, Block.lines]
  have hnumber : 1 + (writtenOut interface before).lines.length = before.length + 2 := by
    simp [writtenOut, Block.lines]
    omega
  rw [readLines_eq, hlines, declareLines_refused htaken hrefused, hnumber]
  rfl

end WrittenOut

end Surface

namespace Command

variable {storage : Storage} {path interface : String} {lines implementations : List String}

/-- A file is there and holds a text with the given lines. -/
def Storage.HasLines (storage : Storage) (path : String) (lines : List String) : Prop :=
  ∃ bytes text, storage.read path = .ok bytes ∧ decode? bytes = some text ∧
    Text.lines text = lines.map String.toList

/-- Lines without breaks are those of the file that they are written to. -/
theorem hasLines_single (h : ∀ line ∈ lines, Text.IsOneLine line.toList) (path : String) :
    (Storage.single path (Text.terminated lines)).HasLines path lines := by
  refine ⟨_, _, read_single path _, decode?_toUTF8 _, ?_⟩
  rw [Text.unifyLineFeeds_terminated h, Text.lines_terminated h]

/-- Reading a file is reading its lines. -/
theorem loadFile_eq (h : storage.HasLines path lines) :
    loadFile storage path = (({} : Vocabulary).readLines lines).mapError .line := by
  obtain ⟨bytes, text, hbytes, htext, hlines⟩ := h
  rw [loadFile, hbytes, Vocabulary.readLines, ← hlines]
  simp only [bind, Except.bind, Except.mapError, htext]

/-- What the program reads before it checks the first declaration, if its arguments ask
for a check. -/
def declarationsRead (storage : Storage) (argv : List String) :
    Option (Except LoadError (List Declaration)) :=
  match readRequest argv with
  | .check verbose request => some (load storage verbose request).2
  | _ => none

/-- An interface and implementations of it are given by switches. -/
def bySwitches (interface : String) (implementations : List String) : Invocation :=
  ⟨some interface, implementations, none, []⟩

/-- A file with declarations is given by its path. -/
def byFile (path : String) : Invocation := ⟨none, [], none, [path]⟩

/-- Switches are read as one declaration. -/
theorem declarationsRead_bySwitches (hne : interface ≠ "") :
    declarationsRead storage (bySwitches interface implementations).arguments =
      some (((declarationOf interface implementations).map ([·])).mapError .signature) := by
  have hproper : (bySwitches interface implementations).IsProper :=
    ⟨fun h => hne (Option.some.inj h), fun text h => by cases h⟩
  have hlone : ¬((bySwitches interface implementations).interface = none ∧
      (bySwitches interface implementations).implementations ≠ []) := fun h => by cases h.1
  rw [declarationsRead, Invocation.readRequest_arguments hproper, if_neg hlone]
  dsimp only [bySwitches, Invocation.request, load]
  cases declarationOf interface implementations <;> rfl

/-- A file is read on its own. -/
theorem declarationsRead_byFile :
    declarationsRead storage (byFile path).arguments = some (loadFile storage path) := by
  have hproper : (byFile path).IsProper := ⟨by simp [byFile], fun text h => by cases h⟩
  have hlone : ¬((byFile path).interface = none ∧ (byFile path).implementations ≠ []) :=
    fun h => h.2 rfl
  rw [declarationsRead, Invocation.readRequest_arguments hproper, if_neg hlone]
  dsimp only [byFile, Invocation.request, load, loadFiles]
  cases loadFile storage path with
  | error e => rfl
  | ok declared => exact congrArg (some ∘ Except.ok) (List.append_nil declared)

/-- Switches and lines declare the same. Take an interface that can be read and any
implementations, all of them without comments and line breaks, and a file whose lines
are these texts written out; there is such a file. If all implementations can be read,
the program reads one declaration without a name from the switches, and the same one
from the file. Otherwise it refuses both, for the first implementation that cannot be
read: the file names its line, with the error that the switches report as the cause. -/
theorem switches_eq_lines {s : Signature}
    (hplain : ∀ text ∈ interface :: implementations,
      '#' ∉ text.toList ∧ Text.IsOneLine text.toList)
    (hinterface : ({} : Vocabulary).readSignature interface = .ok s) :
    (∀ path, (Storage.single path (Text.terminated
      (Surface.writtenOut interface implementations).lines)).HasLines path
        (Surface.writtenOut interface implementations).lines) ∧
    ∀ storage path,
      Storage.HasLines storage path (Surface.writtenOut interface implementations).lines →
      (∃ is, List.Forall₂ (fun text i => ({} : Vocabulary).readSignature text = .ok i)
          implementations is ∧
        declarationsRead storage (bySwitches interface implementations).arguments =
          some (.ok [⟨none, s, is⟩]) ∧
        declarationsRead storage (byFile path).arguments = some (.ok [⟨none, s, is⟩])) ∨
      ∃ before text after is cause, implementations = before ++ text :: after ∧
        List.Forall₂ (fun text i => ({} : Vocabulary).readSignature text = .ok i) before is ∧
        ({} : Vocabulary).readSignature text = .error cause ∧
        declarationsRead storage (bySwitches interface implementations).arguments =
          some (.error (.signature cause)) ∧
        declarationsRead storage (byFile path).arguments = some (.error (.line
          ⟨before.length + 2,
            String.ofList (Surface.statement (Surface.implementationLine text).toList),
            cause⟩)) := by
  obtain ⟨hfirst, hlater⟩ := List.forall_mem_cons.1 hplain
  have hcomment : ∀ text ∈ implementations, '#' ∉ text.toList := fun text htext =>
    (hlater text htext).1
  have hne : interface ≠ "" := by
    rintro rfl
    cases hinterface
  have hlines := Surface.isOneLine_writtenOut fun text htext => (hplain text htext).2
  refine ⟨hasLines_single hlines, fun storage path hlines => ?_⟩
  rw [declarationsRead_bySwitches hne, declarationsRead_byFile, loadFile_eq hlines]
  cases hmapM : implementations.mapM ({} : Vocabulary).readSignature with
  | ok is =>
    have hread := mapM_eq_ok_iff.1 hmapM
    have hgiven := declarationOf_eq_ok_iff.2 ⟨s, is, hinterface, hread, rfl⟩
    refine .inl ⟨is, hread, ?_, ?_⟩
    · rw [hgiven]
      rfl
    · rw [Surface.readLines_writtenOut hfirst.1 hinterface hcomment hread]
      rfl
  | error cause =>
    obtain ⟨before, text, after, is, rfl, hread, hcause⟩ := mapM_eq_error_iff.1 hmapM
    refine .inr ⟨before, text, after, is, cause, rfl, hread, hcause, ?_, ?_⟩
    · rw [declarationOf, hinterface]
      simp only [bind, Except.bind, hmapM]
      rfl
    · rw [Surface.readLines_writtenOut_error hfirst.1 hinterface hcomment hread hcause]
      rfl

/-- Implementations of which the second one is blank and the third one is not closed. -/
def halfWritten : List String := ["()", "\u00a0", "("]

/-- A storage with a file in which they are written out below an interface with blanks
inside and outside its brackets. -/
def halfWrittenFile : Storage :=
  .single "d" (Text.terminated (Surface.writtenOut " (\u3000) " halfWritten).lines)

/-- The blank text is refused both ways. In the file it stands on the third line, of
which only the word is left. -/
theorem switches_eq_lines_halfWritten :
    (Surface.writtenOut " (\u3000) " halfWritten).lines = ["interface  (\u3000) ",
      "implementation ()", "implementation \u00a0", "implementation ("] ∧
    (bySwitches " (\u3000) " halfWritten).arguments = ["check", "-i", " (\u3000) ",
      "-m", "()", "-m", "\u00a0", "-m", "(", "--"] ∧
    declarationsRead halfWrittenFile (bySwitches " (\u3000) " halfWritten).arguments =
      some (.error (.signature .emptyInput)) ∧
    declarationsRead halfWrittenFile (byFile "d").arguments =
      some (.error (.line ⟨3, "implementation", .emptyInput⟩)) := by
  have hplain : ∀ text ∈ " (\u3000) " :: halfWritten,
      '#' ∉ text.toList ∧ Text.IsOneLine text.toList := by decide
  have hinterface : ({} : Vocabulary).readSignature " (\u3000) " = .ok ⟨[]⟩ := by rfl
  have hfirst : ({} : Vocabulary).readSignature "()" = .ok ⟨[]⟩ := by rfl
  have hblank : ({} : Vocabulary).readSignature "\u00a0" = .error .emptyInput := by rfl
  have hunread : ∀ later is, ¬List.Forall₂
      (fun text i => ({} : Vocabulary).readSignature text = .ok i)
      ("()" :: "\u00a0" :: later) is := by
    rintro later is (_ | ⟨_, _ | ⟨hi, _⟩⟩)
    rw [hblank] at hi
    cases hi
  obtain ⟨hexists, hagree⟩ := switches_eq_lines hplain hinterface
  refine ⟨by decide, by decide, ?_⟩
  rcases hagree _ _ (hexists "d") with ⟨is, hread, _⟩ | ⟨before, text, after, is, cause, hsplit,
    hread, hcause, hswitches, hfile⟩
  · exact absurd hread (hunread ["("] is)
  · match before, hsplit with
    | [], hsplit =>
      cases hsplit
      rw [hfirst] at hcause
      cases hcause
    | [_], hsplit =>
      cases hsplit
      rw [hblank] at hcause
      cases hcause
      exact ⟨hswitches, hfile⟩
    | _ :: _ :: later, hsplit =>
      cases congrArg (List.take 2) hsplit
      exact absurd hread (hunread later is)

end Command

end DispatchCoverage

import Mathlib.Data.List.Nodup
import DispatchCoverage.Report
import DispatchCoverage.Proofs.Grouping
import DispatchCoverage.Proofs.WrittenForm

/-!
# Reading reports

A report loses nothing of the results that it is about. Its lines fall into
blocks, one for each result: only leaves stand behind a tab, so a line without
one begins the next block. Without its last word the header is read as the name
and the interface of the declaration, and the other lines are read as the leaves,
once each. So results with the same report agree in all that is reported.
-/

namespace DispatchCoverage

/-! ## Texts on one line -/

namespace Text

/-- A line break is blank. -/
theorem isBlank_of_isLineBreak {c : Char} (h : isLineBreak c = true) : isBlank c = true := by
  simp only [isLineBreak, Bool.or_eq_true, Bool.and_eq_true, decide_eq_true_eq, beq_iff_eq] at h
  simp only [isBlank, isWhite, whiteRanges, inRanges, isInformationSeparator, List.any_cons,
    List.any_nil, Bool.or_eq_true, Bool.and_eq_true, decide_eq_true_eq]
  omega

/-- Texts with a mark between them are on one line if the mark and all of them
are. -/
theorem IsOneLine.intercalate {sep : String} (hsep : IsOneLine sep.toList) {texts : List String}
    (h : ∀ text ∈ texts, IsOneLine text.toList) : IsOneLine (sep.intercalate texts).toList := by
  induction texts with
  | nil => exact fun c hc => absurd hc List.not_mem_nil
  | cons text texts ih =>
    obtain ⟨htext, htexts⟩ := List.forall_mem_cons.1 h
    cases texts with
    | nil => rwa [String.intercalate_singleton]
    | cons next texts =>
      rw [String.intercalate_cons_cons, String.toList_append, String.toList_append]
      exact (htext.append hsep).append (ih htexts)

end Text

open Text (IsOneLine)

/-- A word is on one line. -/
theorem Name.isOneLine {n : Name} (h : n.isWord = true) : IsOneLine n.text.toList := by
  intro c hc
  have hplain : Surface.isPlain c = true := (Surface.isWord_iff.1 h).2.2 c hc
  cases hbreak : Text.isLineBreak c with
  | false => rfl
  | true => simp [Surface.isPlain, Text.isBlank_of_isLineBreak hbreak] at hplain

/-- The marks of the default style are on one line. -/
theorem isOneLine_marks : IsOneLine ", ".toList ∧ IsOneLine " | ".toList ∧
    IsOneLine "(".toList ∧ IsOneLine ")".toList ∧ IsOneLine "⊥".toList := by decide

/-- A tag whose names are words is written on one line. -/
theorem Tag.isOneLine_text : ∀ t : Tag, t.allNames Name.isWord = true →
    IsOneLine (t.text {}).toList
  | .mk n ts, h => by
    rw [Tag.allNames_mk, Bool.and_eq_true, List.all_eq_true] at h
    have hname : IsOneLine n.text.toList := Name.isOneLine h.1
    have harguments : ∀ text ∈ ts.map (Tag.text {}), IsOneLine text.toList := by
      intro text htext
      obtain ⟨t, ht, rfl⟩ := List.mem_map.1 htext
      exact Tag.isOneLine_text t (h.2 t ht)
    obtain ⟨hsep, _, hopen, hclose, _⟩ := isOneLine_marks
    cases ts with
    | nil => exact hname
    | cons t ts =>
      rw [Tag.text, ← Tag.texts.eq_2, Tag.texts_eq_map]
      simp only [String.toList_append]
      exact ((hname.append hopen).append (.intercalate hsep harguments)).append hclose
termination_by t => sizeOf t

/-- A set whose names are words is written on one line. -/
theorem TypeSet.isOneLine_text {s : TypeSet} (h : TypeSet.allNames Name.isWord s = true) :
    IsOneLine (TypeSet.text {} s).toList := by
  obtain ⟨_, halt, _, _, hempty⟩ := isOneLine_marks
  rw [TypeSet.text]
  split
  · exact hempty
  · refine .intercalate halt fun text htext => ?_
    have hmem : text ∈ s.toList.map (Tag.text {}) := (List.mergeSort_perm _ _).mem_iff.1 htext
    obtain ⟨t, ht, rfl⟩ := List.mem_map.1 hmem
    exact Tag.isOneLine_text t (List.all_eq_true.1 h t ht)

/-- A signature whose names are words is written on one line. -/
theorem Signature.isOneLine_text {s : Signature} (h : s.allNames Name.isWord = true) :
    IsOneLine (s.text {}).toList := by
  obtain ⟨hsep, _, hopen, hclose, _⟩ := isOneLine_marks
  have hsets : ∀ text ∈ s.parameters.map (TypeSet.text {}), IsOneLine text.toList := by
    intro text htext
    obtain ⟨p, hp, rfl⟩ := List.mem_map.1 htext
    exact TypeSet.isOneLine_text (List.all_eq_true.1 h p hp)
  rw [Signature.text]
  simp only [String.toList_append]
  exact (hopen.append (.intercalate hsep hsets)).append hclose

/-! ## Texts in strictly ascending order -/

/-- Different texts are sorted in strictly ascending order. -/
theorem TypeSet.pairwise_lt_sortTexts {texts : List String} (h : texts.Nodup) :
    (TypeSet.sortTexts texts).Pairwise (· < ·) := by
  have htrans : ∀ a b c : String, (compare a b).isLE = true → (compare b c).isLE = true →
      (compare a c).isLE = true := fun _ _ _ hab hbc => Std.TransCmp.isLE_trans hab hbc
  have htotal : ∀ a b : String, ((compare a b).isLE || (compare b a).isLE) = true := by
    intro a b
    rw [(Std.OrientedCmp.eq_swap : compare b a = (compare a b).swap)]
    cases compare a b <;> rfl
  have hsorted : (TypeSet.sortTexts texts).Pairwise fun a b => (compare a b).isLE :=
    List.pairwise_mergeSort htrans htotal texts
  have hnodup : (TypeSet.sortTexts texts).Nodup := (List.mergeSort_perm _ _).nodup_iff.2 h
  refine hsorted.imp₂ (fun a b hle hne => ?_) hnodup
  rcases Ordering.isLE_iff_eq_lt_or_eq_eq.1 hle with hlt | heq
  · exact compareOfLessAndEq_eq_lt.1 hlt
  · exact absurd (Std.compare_eq_iff_eq.1 heq) hne

namespace Surface

variable {v : Vocabulary}

/-- A name in front of a signature is read as the name of an interface. -/
theorem readInterface_named {text : String} {n : Name} {s : Signature}
    (hname : n.isWord = true) (h : v.readSignature text = .ok s) :
    readInterface v (n.text ++ " " ++ text) = .ok ⟨some n, s, []⟩ := by
  obtain ⟨hreserved, hsign⟩ := isName_of_isWord hname
  have hspells : tokensOf n.text.toList = [n.text] :=
    (spells_word n.nonempty (isWord_iff.1 hname).2.2).tokensOf_eq
  have hspace : ∀ c ∈ (' ' :: text.toList).head?, isPlain c = false := by
    intro c hc
    cases hc
    decide
  have htokens : tokenize (n.text ++ " " ++ text) = n.text :: tokenize text := by
    have hline : (n.text ++ " " ++ text).toList = n.text.toList ++ ' ' :: text.toList := by
      simp [String.toList_append]
    rw [tokenize_eq, tokenize_eq, hline, tokensOf_append hspace, hspells,
      tokensOf_blank (by decide), List.singleton_append]
    rintro ⟨later, hbar⟩
    exact absurd (List.cons.inj hbar).1 (by decide)
  refine readInterface_of_derivesInterface ?_
  rw [htokens]
  exact .named hreserved hsign (Vocabulary.readSignature_eq_ok_iff.1 h)

/-- Blocks whose other lines differ from the header lines by a test are determined by
their lines. -/
theorem Block.eq_of_flatMap_lines {test : String → Bool} {blocks blocks' : List Block}
    (h : ∀ b ∈ blocks, test b.header = false ∧ ∀ line ∈ b.body, test line = true)
    (h' : ∀ b ∈ blocks', test b.header = false ∧ ∀ line ∈ b.body, test line = true)
    (hlines : blocks.flatMap lines = blocks'.flatMap lines) : blocks = blocks' := by
  have hbody : ∀ (bs : List Block), (∀ b ∈ bs, test b.header = false) →
      (bs.flatMap lines).takeWhile test = [] := by
    intro bs hbs
    cases bs with
    | nil => rfl
    | cons b bs =>
      rw [List.flatMap_cons, lines, List.cons_append]
      exact List.takeWhile_cons_of_neg (by simp [hbs b List.mem_cons_self])
  induction blocks generalizing blocks' with
  | nil =>
    cases blocks' with
    | nil => rfl
    | cons b' blocks' => exact absurd hlines (List.cons_ne_nil _ _).symm
  | cons b blocks ih =>
    cases blocks' with
    | nil => exact absurd hlines (List.cons_ne_nil _ _)
    | cons b' blocks' =>
      obtain ⟨hb, hblocks⟩ := List.forall_mem_cons.1 h
      obtain ⟨hb', hblocks'⟩ := List.forall_mem_cons.1 h'
      rw [List.flatMap_cons, List.flatMap_cons] at hlines
      obtain ⟨hheader, hrest⟩ : b.header = b'.header ∧
          b.body ++ blocks.flatMap lines = b'.body ++ blocks'.flatMap lines :=
        List.cons.inj hlines
      have htake := congrArg (List.takeWhile test) hrest
      rw [List.takeWhile_append_of_pos hb.2, List.takeWhile_append_of_pos hb'.2,
        hbody _ fun c hc => (hblocks c hc).1, hbody _ fun c hc => (hblocks' c hc).1,
        List.append_nil, List.append_nil] at htake
      rw [htake] at hrest
      rw [ih hblocks hblocks' (List.append_cancel_left hrest)]
      cases b
      cases b'
      cases hheader
      cases htake
      rfl

end Surface

namespace Report

open Surface

variable {v : Vocabulary} {r r' : Declaration × SignatureSet} {b : Block}

/-- What a header ends with. -/
def verdict (incomplete : Bool) : String := if incomplete then ": incomplete" else ": complete"

/-- A header that ends with a verdict has no other way to do so. -/
theorem append_verdict_inj {text text' : String} {incomplete incomplete' : Bool} :
    text ++ verdict incomplete = text' ++ verdict incomplete' ↔
      text = text' ∧ incomplete = incomplete' := by
  have hdiffer : ∀ a b : String, a ++ ": incomplete" ≠ b ++ ": complete" := by
    intro a b heq
    have hlist : (a.toList ++ ": ".toList ++ "incomplete".toList) =
        b.toList ++ ": complete".toList := by
      rw [List.append_assoc, ← String.toList_append, ← String.toList_append,
        ← String.toList_append]
      exact congrArg String.toList heq
    have hlength : "incomplete".toList.length = ": complete".toList.length := by decide
    exact absurd (List.append_inj_right' hlist hlength) (by decide)
  refine ⟨fun h => ?_, fun h => by rw [h.1, h.2]⟩
  cases incomplete <;> cases incomplete'
  · exact ⟨(String.append_left_inj _).1 h, rfl⟩
  · exact absurd h.symm (hdiffer _ _)
  · exact absurd h (hdiffer _ _)
  · exact ⟨(String.append_left_inj _).1 h, rfl⟩

/-- The lines on one result: the header, and a line for each leaf. -/
def block (r : Declaration × SignatureSet) : Block where
  header := label r.1 ++ verdict (!r.2.isEmpty)
  body := (TypeSet.sortTexts (r.2.toList.map (Signature.text {}))).map ("\t" ++ ·)

/-- A result is reported by the lines of its block. -/
theorem entry_eq (r : Declaration × SignatureSet) : entry r.1 r.2 = (block r).lines := by
  obtain ⟨d, leaves⟩ := r
  unfold entry
  split
  · rename_i hempty
    obtain rfl := Ascending.isEmpty_iff.1 hempty
    simp [block, Block.lines, verdict, TypeSet.sortTexts, Ascending.isEmpty]
  · rename_i hsome
    simp [block, Block.lines, verdict, hsome]

/-- A report consists of the lines of its blocks. -/
theorem text_eq (results : List (Declaration × SignatureSet)) :
    text results = Text.terminated ((results.map block).flatMap Block.lines) := by
  simp only [text, Text.terminated, entry_eq, List.flatMap_map]

/-- A result of which everything that is reported is written with words. -/
structure IsWritten (r : Declaration × SignatureSet) : Prop where
  /-- The name of the declaration, if it has one, is a word. -/
  name : ∀ n, r.1.name = some n → n.isWord = true
  /-- The names in the interface are words. -/
  interface : r.1.interface.allNames Name.isWord = true
  /-- The names in the leaves are words. -/
  leaves : ∀ leaf ∈ r.2, leaf.allNames Name.isWord = true

/-- A block can be read as a result. -/
structure ReadsAs (v : Vocabulary) (b : Block) (r : Declaration × SignatureSet) : Prop where
  /-- The header does not begin with a tab. -/
  untabbed : b.header.toList.head? ≠ some '\t'
  /-- The header ends with a verdict, which says whether there is a leaf. What stands in
  front of it is read as the name and the interface. -/
  header : ∃ label, (∀ text incomplete, b.header = text ++ verdict incomplete ↔
      text = label ∧ (incomplete = true ↔ ∃ leaf, leaf ∈ r.2)) ∧
    readInterface v label = .ok ⟨r.1.name, r.1.interface, []⟩
  /-- The other lines begin with a tab. -/
  tabbed : ∀ line ∈ b.body, line.toList.head? = some '\t'
  /-- They are in strictly ascending order. -/
  ascending : b.body.Pairwise (· < ·)
  /-- They are read as the leaves, once each. -/
  leaves : ∃ leaves, b.body.mapM v.readSignature = .ok leaves ∧ leaves.Perm r.2.toList

/-- An open vocabulary reads a signature whose names are words from its written
form. -/
theorem readSignature_text_of_open (hopen : v.closed = false) {s : Signature}
    (h : s.allNames Name.isWord = true) : v.readSignature (s.text {}) = .ok s := by
  refine Vocabulary.readSignature_text (s.allNames_mono (fun n hn => ?_) h)
  exact Vocabulary.writes_iff.2 ⟨hn, by simp [hopen]⟩

/-- A tab in front of a signature does not matter. -/
theorem readSignature_tab (text : String) :
    v.readSignature ("\t" ++ text) = v.readSignature text := by
  refine readSignature_congr ?_
  have hline : ("\t" ++ text).toList = '\t' :: text.toList := by simp [String.toList_append]
  rw [tokenize_eq, tokenize_eq, hline, tokensOf_blank (by decide)]

/-- Signatures whose names are words have different written forms. -/
theorem text_injOn {s t : Signature} (hs : s.allNames Name.isWord = true)
    (ht : t.allNames Name.isWord = true) (h : s.text {} = t.text {}) : s = t := by
  have hread : ({} : Vocabulary).readSignature (s.text {}) = .ok s :=
    readSignature_text_of_open rfl hs
  rw [h, readSignature_text_of_open rfl ht] at hread
  exact (Except.ok.inj hread).symm

/-- The name and the interface of a declaration are read from its label. -/
theorem readInterface_label (hopen : v.closed = false) (h : IsWritten r) :
    readInterface v (label r.1) = .ok ⟨r.1.name, r.1.interface, []⟩ := by
  have hread : v.readSignature (r.1.interface.text {}) = .ok r.1.interface :=
    readSignature_text_of_open hopen h.interface
  cases hname : r.1.name with
  | none =>
    rw [label, hname]
    exact readInterface_unnamed hread
  | some n =>
    rw [label, hname]
    exact readInterface_named (h.name n hname) hread

/-- The label of a declaration is on one line. -/
theorem isOneLine_label (h : IsWritten r) : IsOneLine (label r.1).toList := by
  have hinterface : IsOneLine (r.1.interface.text {}).toList :=
    Signature.isOneLine_text h.interface
  have hspace : IsOneLine " ".toList := by
    intro c hc
    obtain rfl := List.mem_singleton.1 hc
    decide
  cases hname : r.1.name with
  | none =>
    rw [label, hname]
    exact hinterface
  | some n =>
    have hlabel : label r.1 = n.text ++ " " ++ r.1.interface.text {} := by
      rw [label, hname]
      rfl
    rw [hlabel, String.toList_append, String.toList_append]
    exact ((Name.isOneLine (h.name n hname)).append hspace).append hinterface

/-- The label of a declaration does not begin with a tab. -/
theorem head?_label (h : IsWritten r) (rest : List Char) :
    ((label r.1).toList ++ rest).head? ≠ some '\t' := by
  cases hname : r.1.name with
  | none =>
    have hlabel : label r.1 = r.1.interface.text {} := by
      rw [label, hname]
      rfl
    rw [hlabel, Signature.text]
    simp
  | some n =>
    have hlabel : label r.1 = n.text ++ " " ++ r.1.interface.text {} := by
      rw [label, hname]
      rfl
    obtain ⟨c, cs, hn⟩ := List.exists_cons_of_ne_nil
      fun hnil => n.nonempty (String.toList_eq_nil_iff.1 hnil)
    have hplain : isPlain c = true :=
      (isWord_iff.1 (h.name n hname)).2.2 c (hn ▸ List.mem_cons_self)
    rw [hlabel, String.toList_append, String.toList_append, hn]
    rintro heq
    cases heq
    exact absurd hplain (by decide)

/-- The lines on a result are on one line each. -/
theorem isOneLine_of_mem_block (h : IsWritten r) :
    ∀ line ∈ (block r).lines, IsOneLine line.toList := by
  have hverdict : ∀ incomplete, IsOneLine (verdict incomplete).toList := by
    have hall : ∀ incomplete, (verdict incomplete).toList.all (!Text.isLineBreak ·) = true := by
      decide
    intro incomplete c hc
    simpa using List.all_eq_true.1 (hall incomplete) c hc
  intro line hline
  rcases List.mem_cons.1 hline with rfl | hline
  · rw [block, String.toList_append]
    exact (isOneLine_label h).append (hverdict _)
  · obtain ⟨text, htext, rfl⟩ := List.mem_map.1 hline
    have hmem : text ∈ r.2.toList.map (Signature.text {}) :=
      (List.mergeSort_perm _ _).mem_iff.1 htext
    obtain ⟨leaf, hleaf, rfl⟩ := List.mem_map.1 hmem
    rw [String.toList_append]
    refine .append (fun c hc => ?_) (Signature.isOneLine_text (h.leaves leaf hleaf))
    obtain rfl := List.mem_singleton.1 hc
    decide

/-- The block of a result can be read as the result. -/
theorem block_readsAs (hopen : v.closed = false) (h : IsWritten r) : ReadsAs v (block r) r where
  untabbed := by
    rw [block, String.toList_append]
    exact head?_label h _
  header := by
    refine ⟨label r.1, fun text incomplete => ?_, readInterface_label hopen h⟩
    rw [block, eq_comm, append_verdict_inj, ← Ascending.isEmpty_eq_false_iff]
    cases incomplete <;> cases r.2.isEmpty <;> simp
  tabbed := by
    intro line hline
    obtain ⟨text, _, rfl⟩ := List.mem_map.1 hline
    simp [String.toList_append]
  ascending := by
    have hdistinct : (r.2.toList.map (Signature.text {})).Nodup :=
      List.Nodup.map_on (fun s hs t ht heq => text_injOn (h.leaves s hs) (h.leaves t ht) heq)
        r.2.nodup_toList
    refine List.pairwise_map.2 ((TypeSet.pairwise_lt_sortTexts hdistinct).imp fun {a b} hlt => ?_)
    rw [String.lt_iff] at hlt ⊢
    simpa [String.toList_append] using hlt
  leaves := by
    obtain ⟨leaves, hperm, htexts⟩ := exists_map_eq_sortTexts (Signature.text {}) r.2.toList
    refine ⟨leaves, ?_, hperm⟩
    rw [block, ← htexts, List.map_map]
    refine mapM_eq_ok_iff.2 (List.forall₂_map_left_iff.2 (List.forall₂_same.2 fun s hs => ?_))
    have hs : s ∈ r.2 := hperm.mem_iff.1 hs
    exact (readSignature_tab _).trans (readSignature_text_of_open hopen (h.leaves s hs))

/-- What is reported of a result: the name and the interface of the declaration, and the
leaves. -/
def reported (r : Declaration × SignatureSet) : Option Name × Signature × SignatureSet :=
  (r.1.name, r.1.interface, r.2)

/-- A block can be read as one result only, as far as results are reported. -/
theorem ReadsAs.unique (h : ReadsAs v b r) (h' : ReadsAs v b r') : reported r = reported r' := by
  classical
  obtain ⟨label, hlabel, hread⟩ := h.header
  obtain ⟨label', hlabel', hread'⟩ := h'.header
  obtain ⟨leaves, hleaves, hperm⟩ := h.leaves
  obtain ⟨leaves', hleaves', hperm'⟩ := h'.leaves
  have hheader : b.header = label ++ verdict (decide (∃ leaf, leaf ∈ r.2)) :=
    (hlabel _ _).2 ⟨rfl, decide_eq_true_iff⟩
  obtain ⟨rfl, _⟩ := (hlabel' _ _).1 hheader
  rw [hread] at hread'
  rw [hleaves] at hleaves'
  obtain ⟨hname, hinterface, _⟩ := Declaration.mk.inj (Except.ok.inj hread')
  obtain rfl := Except.ok.inj hleaves'
  have hsame : r.2 = r'.2 := Ascending.ext_mem fun leaf =>
    (hperm.symm.mem_iff (a := leaf)).trans hperm'.mem_iff
  rw [reported, reported, hname, hinterface, hsame]

variable {results results' : List (Declaration × SignatureSet)}

/-- The lines of a report are those of its blocks. -/
theorem lines_text (h : ∀ r ∈ results, IsWritten r) :
    Text.lines (text results).toList =
      ((results.map block).flatMap Block.lines).map String.toList := by
  rw [text_eq]
  refine Text.lines_terminated fun line hline => ?_
  rw [List.flatMap_map] at hline
  obtain ⟨r, hr, hmem⟩ := List.mem_flatMap.1 hline
  exact isOneLine_of_mem_block (h r hr) line hmem

/-- The blocks of a report can be read as its results. -/
theorem blocks_readAs (hopen : v.closed = false) (h : ∀ r ∈ results, IsWritten r) :
    List.Forall₂ (ReadsAs v) (results.map block) results :=
  List.forall₂_map_left_iff.2 (List.forall₂_same.2 fun r hr => block_readsAs hopen (h r hr))

/-- Whether a line begins with a tab. -/
def isTabbed (line : String) : Bool := line.toList.head? == some '\t'

/-- Only the lines for leaves begin with a tab. -/
theorem isTabbed_of_mem_blocks (h : ∀ r ∈ results, IsWritten r) : ∀ b ∈ results.map block,
    isTabbed b.header = false ∧ ∀ line ∈ b.body, isTabbed line = true := by
  intro b hb
  obtain ⟨r, hr, rfl⟩ := List.mem_map.1 hb
  have hread : ReadsAs {} (block r) r := block_readsAs rfl (h r hr)
  exact ⟨beq_eq_false_iff_ne.2 hread.untabbed, fun line hline =>
    beq_iff_eq.2 (hread.tabbed line hline)⟩

/-- Blocks determine what is reported. -/
theorem map_reported_eq {blocks : List Block} (h : List.Forall₂ (ReadsAs v) blocks results)
    (h' : List.Forall₂ (ReadsAs v) blocks results') :
    results.map reported = results'.map reported := by
  induction h generalizing results' with
  | nil => cases h'; rfl
  | cons hr _ ih =>
    cases h' with
    | cons hr' hrs' => rw [List.map_cons, List.map_cons, hr.unique hr', ih hrs']

/-- A report loses nothing. Its lines fall into blocks, one for each result in order:
a header that does not begin with a tab, and a line with a tab for each leaf. The last
word of the header says whether there are leaves, and what stands in front of it is
read as the name and the interface. The other lines are in strictly ascending order and
are read as the leaves, once each. So results with the same report agree in names,
interfaces and leaves. -/
theorem text_loses_nothing (v : Vocabulary) (hopen : v.closed = false) :
    (∀ results, (∀ r ∈ results, IsWritten r) →
      ∃ blocks : List Block,
        Text.lines (text results).toList = (blocks.flatMap Block.lines).map String.toList ∧
        List.Forall₂ (ReadsAs v) blocks results) ∧
    ∀ results results', (∀ r ∈ results, IsWritten r) → (∀ r ∈ results', IsWritten r) →
      text results = text results' → results.map reported = results'.map reported := by
  refine ⟨fun results h => ⟨results.map block, lines_text h, blocks_readAs hopen h⟩,
    fun results results' h h' htext => ?_⟩
  have hlines : (results.map block).flatMap Block.lines =
      (results'.map block).flatMap Block.lines := by
    refine List.map_injective_iff.2 (fun _ _ => String.toList_inj.1) ?_
    rw [← lines_text h, htext, lines_text h']
  have hblocks : results.map block = results'.map block :=
    Block.eq_of_flatMap_lines (isTabbed_of_mem_blocks h) (isTabbed_of_mem_blocks h') hlines
  have hread : List.Forall₂ (ReadsAs v) (results.map block) results := blocks_readAs hopen h
  rw [hblocks] at hread
  exact map_reported_eq hread (blocks_readAs hopen h')

/-- A result with leaves for an interface named like a keyword, whose tags look like
verdicts, and a result without leaves for an interface without positions. -/
def verdictResults : List (Declaration × SignatureSet) :=
  let colon : Tag := .atom ⟨":", by decide⟩
  let complete : Tag := .atom ⟨"complete", by decide⟩
  [(⟨some ⟨"impl:", by decide⟩, ⟨[.ofList [colon, complete]]⟩, []⟩,
      .ofList [⟨[.ofList [colon]]⟩, ⟨[.ofList [complete]]⟩]),
    (⟨none, ⟨[]⟩, []⟩, ∅)]

/-- The report on these results is read as what it is about, and no other results that are
written with words have it. -/
theorem text_loses_nothing_verdicts :
    ({} : Vocabulary).closed = false ∧ (∀ r ∈ verdictResults, IsWritten r) ∧
      (∃ blocks : List Block, Text.lines (text verdictResults).toList =
          (blocks.flatMap Block.lines).map String.toList ∧
        List.Forall₂ (ReadsAs {}) blocks verdictResults) ∧
      ∀ results, (∀ r ∈ results, IsWritten r) → text results = text verdictResults →
        results.map reported = verdictResults.map reported := by
  have hwritten : ∀ r ∈ verdictResults, IsWritten r := by
    have hall : verdictResults.all (fun r => r.1.name.all Name.isWord &&
        r.1.interface.allNames Name.isWord && r.2.toList.all (·.allNames Name.isWord)) = true := by
      decide +kernel
    intro r hr
    have h := List.all_eq_true.1 hall r hr
    simp only [Bool.and_eq_true, Option.all_eq_true, List.all_eq_true] at h
    exact ⟨h.1.1, h.1.2, h.2⟩
  obtain ⟨hread, hunique⟩ := text_loses_nothing {} rfl
  exact ⟨rfl, hwritten, hread verdictResults hwritten,
    fun results h => hunique results verdictResults h hwritten⟩

end Report

end DispatchCoverage

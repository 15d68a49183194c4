import DispatchCoverage.Proofs.Scanning
import DispatchCoverage.Surface.Grammar

/-!
# How characters spell tokens

A run of plain characters is one token wherever it ends at a blank, a comma or
a bracket, and each separator is a token of its own. So pieces of a text spell
the same tokens alone and side by side, which is how a written form is broken
up piece by piece. A bar without spaces is an exception: between two underscores
it is part of a sign of the empty set. The other way round, every token is a
separator or a run of plain characters.
-/

namespace DispatchCoverage.Surface

/-- Whether a character can stand in a name: it is neither blank nor a
separator. -/
def isPlain (c : Char) : Bool := !Text.isBlank c && !separators.toList.contains c

/-- The tokens of characters in which the signs of the empty set are set
apart. -/
def pieces (cs : List Char) : List (List Char) :=
  closeRun (scan separators.toList cs).1 (scan separators.toList cs).2

/-- The tokens of some characters. -/
def tokensOf (cs : List Char) : List String := (pieces (setApart cs)).map String.ofList

/-- The tokens of a text are those of its characters. -/
theorem tokenize_eq (text : String) : tokenize text = tokensOf text.toList := rfl

section Pieces

variable {c : Char} {w cs rest : List Char}

/-- A blank separates without being a token. -/
theorem pieces_blank (h : Text.isBlank c = true) : pieces (c :: rest) = pieces rest :=
  scanned_blank h

/-- A separator is a token of its own. -/
theorem pieces_separator (hblank : Text.isBlank c = false) (h : c ∈ separators.toList) :
    pieces (c :: rest) = [c] :: pieces rest :=
  scanned_special hblank h

/-- A run of plain characters alone is one token. -/
theorem pieces_word (hne : w ≠ []) (h : ∀ c ∈ w, isPlain c = true) : pieces w = [w] :=
  scanned_run hne h

/-- Characters are broken up on their own in front of one that is not plain. -/
theorem pieces_append (h : ∀ c ∈ rest.head?, isPlain c = false) :
    pieces (cs ++ rest) = pieces cs ++ pieces rest :=
  scanned_append_of_head h

/-- A sign of the empty set begins with an underscore. -/
theorem setApart_cons (h : c ≠ '_') : setApart (c :: rest) = c :: setApart rest := by
  rw [setApart]
  intro later hc
  exact absurd hc h

/-- A text without bars holds no sign of the empty set. -/
theorem setApart_eq_self (h : ∀ c ∈ w, c ≠ '|') : setApart w = w := by
  induction w with
  | nil => rfl
  | cons c w ih =>
    rw [setApart, ih fun d hd => h d (List.mem_cons_of_mem c hd)]
    rintro later - rfl
    exact h '|' (by simp) rfl

/-- Signs of the empty set are set apart on both sides of a place where none of
them lies across. -/
theorem setApart_append (hhead : rest.head? ≠ some '_')
    (hacross : ['|', '_'] <+: rest → cs.getLast? ≠ some '_') :
    setApart (cs ++ rest) = setApart cs ++ setApart rest := by
  induction cs using setApart.induct with
  | case1 => rfl
  | case2 later ih =>
    have hlater := ih fun hsign hlast => hacross hsign (by simp [List.getLast?_cons, hlast])
    simp only [List.cons_append, setApart, hlater]
  | case3 c later hnone ih =>
    have hlater := ih fun hsign hlast => hacross hsign (by simp [List.getLast?_cons, hlast])
    rw [List.cons_append, setApart, hlater, setApart.eq_3 c later hnone, List.cons_append]
    -- the sign would have to begin in the first part and end in the second
    rintro sign rfl heq
    match later with
    | [] => exact hacross ⟨sign, heq.symm⟩ rfl
    | [d] =>
      have hrest : rest = '_' :: sign := (List.cons.inj heq).2
      exact hhead (congrArg List.head? hrest)
    | d :: e :: later =>
      obtain ⟨rfl, htail⟩ := List.cons.inj heq
      obtain ⟨rfl, -⟩ := List.cons.inj htail
      exact hnone later rfl rfl

/-- A sign of the empty set in a text is set apart. -/
theorem setApart_sign (h : ['_', '|', '_'] <:+: cs) : [' ', '⊥', ' '] <:+: setApart cs := by
  induction cs using setApart.induct with
  | case1 => simp at h
  | case2 later ih => exact ⟨[], setApart later, rfl⟩
  | case3 c later hnone ih =>
    rw [setApart.eq_3 c later hnone]
    rcases List.infix_cons_iff.1 h with ⟨rest, hrest⟩ | hlater
    · obtain ⟨rfl, htail⟩ := List.cons.inj hrest
      exact absurd htail.symm (hnone rest rfl)
    · exact (ih hlater).trans (List.suffix_cons c _).isInfix

end Pieces

/-- Behind a word stands nothing, or a character that ends it: a space, a comma
or a bracket. -/
def EndsWord (rest : List Char) : Prop := ∀ c ∈ rest.head?, c ∈ [' ', ',', '(', ')']

/-- Characters spell tokens: with the end of a word behind them, these tokens
come first. -/
def Spells (cs : List Char) (tokens : List String) : Prop :=
  ∀ rest, EndsWord rest → tokensOf (cs ++ rest) = tokens ++ tokensOf rest

/-- Characters mark tokens: they end the word in front of them and spell these
tokens whatever stands behind them. -/
structure Marks (cs : List Char) (tokens : List String) : Prop where
  /-- The characters end a word. -/
  endsWord : ∀ rest, EndsWord (cs ++ rest)
  /-- The characters spell the tokens. -/
  spells : ∀ rest, tokensOf (cs ++ rest) = tokens ++ tokensOf rest

section Spelling

variable {a b m : List Char} {s t k : List String}

/-- Characters that spell tokens are broken up into just these. -/
theorem Spells.tokensOf_eq (h : Spells a s) : tokensOf a = s := by
  have hnil := h [] fun c hc => nomatch hc
  rw [List.append_nil] at hnil
  rw [hnil]
  exact List.append_nil s

/-- Characters in front of one that is not plain have their own tokens, unless a
sign of the empty set lies across. -/
theorem tokensOf_append {rest : List Char} (hplain : ∀ c ∈ rest.head?, isPlain c = false)
    (hacross : ['|', '_'] <+: rest → a.getLast? ≠ some '_') :
    tokensOf (a ++ rest) = tokensOf a ++ tokensOf rest := by
  have hhead : rest.head? ≠ some '_' := fun h => absurd (hplain '_' h) (by decide)
  have hset : ∀ c ∈ (setApart rest).head?, isPlain c = false := by
    cases rest with
    | nil => exact fun c hc => nomatch hc
    | cons d rest =>
      rw [setApart_cons fun hd => hhead (congrArg some hd)]
      exact hplain
  unfold tokensOf
  rw [setApart_append hhead hacross, pieces_append hset, List.map_append]

/-- Characters spell their own tokens. -/
theorem spells_iff : Spells a s ↔ tokensOf a = s := by
  refine ⟨Spells.tokensOf_eq, ?_⟩
  rintro rfl rest hrest
  have hends : ∀ c ∈ [' ', ',', '(', ')'], (c != '|' && !isPlain c) = true :=
    List.all_eq_true.1 (by decide)
  refine tokensOf_append (fun c hc => ?_) fun hbar _ => ?_
  · simpa using (Bool.and_eq_true_iff.1 (hends c (hrest c hc))).2
  · obtain ⟨later, rfl⟩ := hbar
    exact absurd (hrest '|' rfl) (by decide)

/-- No characters spell no tokens. -/
theorem spells_nil : Spells [] [] := fun _ _ => rfl

/-- What stands behind a mark keeps its tokens. -/
theorem Marks.append (h : Marks m k) (hb : Spells b t) : Spells (m ++ b) (k ++ t) := by
  intro rest hrest
  rw [List.append_assoc, h.spells, hb rest hrest, List.append_assoc]

/-- What stands in front of a mark keeps its tokens. -/
theorem Spells.append (ha : Spells a s) (h : Marks m k) (hb : Spells (m ++ b) (k ++ t)) :
    Spells (a ++ (m ++ b)) (s ++ (k ++ t)) := by
  intro rest hrest
  have hend : EndsWord (m ++ b ++ rest) := by
    rw [List.append_assoc]
    exact h.endsWord _
  rw [List.append_assoc, ha _ hend, hb rest hrest, List.append_assoc s]

/-- The tokens on both sides of a mark are those of the texts there. -/
theorem Marks.tokensOf_append (h : Marks m k) :
    tokensOf (a ++ (m ++ b)) = tokensOf a ++ (k ++ tokensOf b) := by
  rw [← h.spells b]
  exact spells_iff.2 rfl (m ++ b) (h.endsWord b)

/-- A mark can stand behind everything else. -/
theorem Spells.close (ha : Spells a s) (h : Marks m k) : Spells (a ++ m) (s ++ k) := by
  have hclosed := ha.append h (h.append spells_nil)
  rwa [List.append_nil, List.append_nil] at hclosed

/-- A run of plain characters spells itself. -/
theorem spells_word {w : String} (hne : w ≠ "") (h : ∀ c ∈ w.toList, isPlain c = true) :
    Spells w.toList [w] := by
  have hbar : ∀ c ∈ w.toList, c ≠ '|' := by
    rintro c hc rfl
    exact absurd (h _ hc) (by decide)
  have hchars : w.toList ≠ [] := fun hnil => hne (String.toList_eq_nil_iff.1 hnil)
  rw [spells_iff, tokensOf, setApart_eq_self hbar, pieces_word hchars h, List.map_singleton,
    String.ofList_toList]

/-- A text with a bar between two underscores has a sign of the empty set among
its tokens. -/
theorem sign_mem_tokensOf (h : ['_', '|', '_'] <:+: a) : "⊥" ∈ tokensOf a := by
  obtain ⟨earlier, later, hset⟩ := setApart_sign h
  have hspace : ∀ rest : List Char, ∀ c ∈ (' ' :: rest).head?, isPlain c = false := by
    intro rest c hc
    cases hc
    decide
  have hplain : ∀ c ∈ ['⊥'], isPlain c = true := List.all_eq_true.1 (by decide)
  have hsign : pieces (' ' :: '⊥' :: ' ' :: later) = ['⊥'] :: pieces later := by
    rw [pieces_blank (by decide), ← List.singleton_append, pieces_append (hspace later),
      pieces_word (List.cons_ne_nil _ _) hplain, pieces_blank (by decide)]
    rfl
  have hpieces : pieces (setApart a) = pieces earlier ++ ['⊥'] :: pieces later := by
    rw [← hset, List.append_assoc, ← hsign]
    exact pieces_append (hspace _)
  rw [tokensOf, hpieces]
  exact List.mem_map.2 ⟨['⊥'], by simp, rfl⟩

/-- In a text, a separator is a token of its own. -/
theorem tokensOf_separator {c : Char} (h : c ∈ separators.toList) (rest : List Char) :
    tokensOf (c :: rest) = String.ofList [c] :: tokensOf rest := by
  have hseparators : ∀ c ∈ separators.toList, (c != '_' && !Text.isBlank c) = true :=
    List.all_eq_true.1 (by decide)
  obtain ⟨hne, hblank⟩ : c ≠ '_' ∧ Text.isBlank c = false := by simpa using hseparators c h
  unfold tokensOf
  rw [setApart_cons hne, pieces_separator hblank h, List.map_cons]

/-- In a text, a blank is no token. -/
theorem tokensOf_blank {c : Char} (h : Text.isBlank c = true) (rest : List Char) :
    tokensOf (c :: rest) = tokensOf rest := by
  have hne : c ≠ '_' := by
    rintro rfl
    exact absurd h (by decide)
  unfold tokensOf
  rw [setApart_cons hne, pieces_blank h]

/-- Blanks hold no tokens. -/
theorem tokensOf_blanks {blanks : List Char} (h : ∀ c ∈ blanks, Text.isBlank c = true) :
    tokensOf blanks = [] := by
  induction blanks with
  | nil => rfl
  | cons c blanks ih =>
    rw [tokensOf_blank (h c List.mem_cons_self)]
    exact ih fun d hd => h d (List.mem_cons_of_mem c hd)

/-- Blanks behind some characters leave their tokens as they are. -/
theorem tokensOf_append_blanks {blanks : List Char} (h : ∀ c ∈ blanks, Text.isBlank c = true)
    (cs : List Char) : tokensOf (cs ++ blanks) = tokensOf cs := by
  have hplain : ∀ c ∈ blanks.head?, isPlain c = false := by
    intro c hc
    simp [isPlain, h c (List.mem_of_mem_head? hc)]
  rw [tokensOf_append hplain, tokensOf_blanks h, List.append_nil]
  rintro ⟨later, rfl⟩
  exact absurd (h '|' List.mem_cons_self) (by decide)

/-- A bar leaves the tokens on both sides of it as they are, unless it stands
between two underscores. -/
theorem Spells.bar (ha : Spells a s) (hb : Spells b t)
    (hacross : a.getLast? = some '_' → b.head? ≠ some '_') :
    Spells (a ++ '|' :: b) (s ++ "|" :: t) := by
  have hbar : tokensOf ('|' :: b) = "|" :: tokensOf b := tokensOf_separator (by decide) b
  have hplain : ∀ c ∈ ('|' :: b).head?, isPlain c = false := by
    intro c hc
    cases hc
    decide
  rw [spells_iff] at ha hb ⊢
  rw [tokensOf_append hplain, hbar, ha, hb]
  rintro ⟨later, hlater⟩ hlast
  cases hlater
  exact hacross hlast rfl

/-- A space, a comma or a bracket ends the word in front of it. -/
theorem endsWord_cons {c : Char} (h : c ∈ [' ', ',', '(', ')']) (rest : List Char) :
    EndsWord (c :: rest) := by
  intro d hd
  cases hd
  exact h

/-- An opening bracket is a mark. -/
theorem marks_open : Marks "(".toList ["("] :=
  ⟨endsWord_cons (by decide), tokensOf_separator (by decide)⟩

/-- A closing bracket is a mark. -/
theorem marks_close : Marks ")".toList [")"] :=
  ⟨endsWord_cons (by decide), tokensOf_separator (by decide)⟩

/-- A comma is a mark. -/
theorem marks_comma : Marks ",".toList [","] :=
  ⟨endsWord_cons (by decide), tokensOf_separator (by decide)⟩

/-- A comma with a space behind it is a mark. -/
theorem marks_comma_space : Marks ", ".toList [","] := by
  refine ⟨fun rest => endsWord_cons (by decide) _, fun rest => ?_⟩
  have hcomma : tokensOf (',' :: ' ' :: rest) = "," :: tokensOf (' ' :: rest) :=
    tokensOf_separator (by decide) _
  exact hcomma.trans (congrArg _ (tokensOf_blank (by decide) rest))

/-- A bar between spaces is a mark. -/
theorem marks_bar : Marks " | ".toList ["|"] := by
  refine ⟨fun rest => endsWord_cons (by decide) _, fun rest => ?_⟩
  have hspace : tokensOf (' ' :: '|' :: ' ' :: rest) = tokensOf ('|' :: ' ' :: rest) :=
    tokensOf_blank (by decide) _
  have hbar : tokensOf ('|' :: ' ' :: rest) = "|" :: tokensOf (' ' :: rest) :=
    tokensOf_separator (by decide) _
  exact (hspace.trans hbar).trans (congrArg _ (tokensOf_blank (by decide) rest))

end Spelling

section Tokens

/-- A token of some characters is a separator, or a run of one or more plain
characters. -/
def IsToken (token : List Char) : Prop :=
  (∃ c ∈ separators.toList, token = [c]) ∨ token ≠ [] ∧ ∀ c ∈ token, isPlain c = true

/-- Every token of a text is a separator, or a run of one or more plain
characters. -/
theorem isToken_of_mem_tokenize {text token : String} (h : token ∈ tokenize text) :
    IsToken token.toList := by
  obtain ⟨chars, hchars, rfl⟩ := List.mem_map.1 h
  rw [String.toList_ofList]
  exact special_or_run_of_mem hchars

/-- A word is a run of plain characters that is not the sign of the empty
set. -/
theorem isWord_iff {text : String} :
    isWord text = true ↔ text ≠ "" ∧ text ≠ "⊥" ∧ ∀ c ∈ text.toList, isPlain c = true := by
  simp only [isWord, isPlain, Bool.and_eq_true, bne_iff_ne, List.all_eq_true, and_assoc]

/-- A token of a text that can be a name is a word. -/
theorem isWord_of_isToken {token : String} (h : IsToken token.toList)
    (hreserved : isReserved token = false) (hsign : isEmptySign token = false) :
    isWord token = true := by
  rw [isWord_iff]
  rcases h with ⟨c, hc, htoken⟩ | ⟨hne, hplain⟩
  · have hreserve : ∀ c ∈ separators.toList, Text.occursIn [c] separators.toList = true :=
      List.all_eq_true.1 (by decide)
    rw [isReserved, htoken, hreserve c hc] at hreserved
    cases hreserved
  · refine ⟨fun hempty => hne (String.toList_eq_nil_iff.2 hempty), ?_, hplain⟩
    rintro rfl
    exact absurd hsign (by decide)

/-- A word is a token that can be a name. -/
theorem isName_of_isWord {text : String} (h : isWord text = true) :
    isReserved text = false ∧ isEmptySign text = false := by
  obtain ⟨hne, hsign, hplain⟩ := isWord_iff.1 h
  have hseparator : ∀ c ∈ separators.toList, c ∉ text.toList := by
    intro c hc hmem
    have hc' := hplain c hmem
    simp [isPlain, hc] at hc'
  constructor
  · rw [isReserved, Bool.eq_false_iff, ne_eq, Text.occursIn_iff]
    intro hpart
    obtain ⟨c, rest, hchars⟩ := List.exists_cons_of_ne_nil
      fun hnil => hne (String.toList_eq_nil_iff.1 hnil)
    have hmem : c ∈ text.toList := hchars ▸ List.mem_cons_self
    exact hseparator c (hpart.subset hmem) hmem
  · have hbar : text ≠ "_|_" := by
      rintro rfl
      exact hseparator '|' (by decide) (by decide)
    simp [isEmptySign, hsign, hbar]

end Tokens

end DispatchCoverage.Surface

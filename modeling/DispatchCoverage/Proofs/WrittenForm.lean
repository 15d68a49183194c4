import Mathlib.Data.List.Chain
import DispatchCoverage.Proofs.Derivation
import DispatchCoverage.Proofs.Spelling

/-!
# Reading written forms

A tag, set or signature is written so that it can be read again: when all its
names are words, its written form spells tokens that derive it. What is read
from any text has names that are words, so its written form is read as the same
value again.
-/

namespace DispatchCoverage

/-- Whether a name is a word. -/
def Name.isWord (n : Name) : Bool := Surface.isWord n.text

/-- Whether a vocabulary can write a name: it is a word, and it is registered if
the vocabulary is closed. -/
def Vocabulary.writes (v : Vocabulary) (n : Name) : Bool :=
  n.isWord && (!v.closed || v.names.contains n)

/-- Whether every name in a set passes a test, at every depth. -/
def TypeSet.allNames (p : Name → Bool) (s : TypeSet) : Bool := s.toList.all (Tag.allNames p)

/-- Whether every name in a signature passes a test, at every depth. -/
def Signature.allNames (p : Name → Bool) (s : Signature) : Bool :=
  s.parameters.all (TypeSet.allNames p)

section Names

variable {p q : Name → Bool}

/-- Names that pass a test pass a weaker one. -/
theorem Tag.allNames_mono (h : ∀ n, p n = true → q n = true) :
    ∀ t : Tag, t.allNames p = true → t.allNames q = true
  | .mk n ts, ht => by
    rw [Tag.allNames_mk, Bool.and_eq_true, List.all_eq_true] at ht ⊢
    exact ⟨h n ht.1, fun t hmem => Tag.allNames_mono h t (ht.2 t hmem)⟩
termination_by t => sizeOf t

/-- Names in a set that pass a test pass a weaker one. -/
theorem TypeSet.allNames_mono (h : ∀ n, p n = true → q n = true) {s : TypeSet}
    (hs : TypeSet.allNames p s = true) : TypeSet.allNames q s = true :=
  List.all_eq_true.2 fun t ht => Tag.allNames_mono h t (List.all_eq_true.1 hs t ht)

/-- Names in a signature that pass a test pass a weaker one. -/
theorem Signature.allNames_mono (h : ∀ n, p n = true → q n = true) {s : Signature}
    (hs : s.allNames p = true) : s.allNames q = true :=
  List.all_eq_true.2 fun t ht => TypeSet.allNames_mono h (List.all_eq_true.1 hs t ht)

/-- What a vocabulary writes is a word, which a closed vocabulary has
registered. -/
theorem Vocabulary.writes_iff {v : Vocabulary} {n : Name} :
    v.writes n = true ↔ n.isWord = true ∧ (v.closed = true → n ∈ v.names) := by
  cases hclosed : v.closed <;> simp [writes, hclosed]

/-- A vocabulary writes words only. -/
theorem Vocabulary.isWord_of_writes {v : Vocabulary} (n : Name) (h : v.writes n = true) :
    n.isWord = true :=
  (Vocabulary.writes_iff.1 h).1

end Names

namespace Surface

variable {v : Vocabulary}

/-- A style is legible when its brackets and its mark between arguments are marks
for the separators. How alternatives are marked is left open. -/
structure Legible (style : TextStyle) : Prop where
  /-- The opening bracket. -/
  lparen : Marks style.lparen.toList ["("]
  /-- The closing bracket. -/
  rparen : Marks style.rparen.toList [")"]
  /-- The mark between arguments and between parameters. -/
  sep : Marks style.sep.toList [","]

/-- The default style is legible. -/
theorem legible_default : Legible {} := ⟨marks_open, marks_close, marks_comma_space⟩

/-- A text spells tokens that derive a value. -/
def Spelled {α : Type} (derives : List String → α → Prop) (value : α) (text : String) : Prop :=
  ∃ tokens, derives tokens value ∧ Spells text.toList tokens

section Writing

variable {style : TextStyle}

/-- Texts with a separator between them spell tokens that derive a list of items,
if each text spells tokens of its item and the separator spells the mark wherever
it fits. -/
theorem spelled_items {α : Type} {derives : List String → α → Prop}
    {derivesAll : List String → List α → Prop} {mark sep : String} {text : α → String}
    {fits : String → String → Prop} (hjoins : JoinsItems mark derives derivesAll)
    (hsep : ∀ {a b : String} {s t : List String} (texts : List String), fits a b →
      Spells a.toList s → Spells (sep.intercalate (b :: texts)).toList t →
      Spells (a.toList ++ (sep.toList ++ (sep.intercalate (b :: texts)).toList)) (s ++ mark :: t))
    {items : List α} (hne : items ≠ []) (h : ∀ item ∈ items, Spelled derives item (text item))
    (hfits : (items.map text).IsChain fits) :
    Spelled derivesAll items (sep.intercalate (items.map text)) := by
  induction items with
  | nil => exact absurd rfl hne
  | cons item items ih =>
    obtain ⟨tokens, hitem, hspells⟩ := h item List.mem_cons_self
    cases items with
    | nil =>
      refine ⟨tokens, hjoins.one hitem, ?_⟩
      rwa [List.map_singleton, String.intercalate_singleton]
    | cons next items =>
      obtain ⟨hfit, hfits⟩ := List.isChain_cons_cons.1 hfits
      obtain ⟨later, hitems, hlater⟩ := ih (List.cons_ne_nil next items)
        (fun other hother => h other (List.mem_cons_of_mem item hother)) hfits
      refine ⟨tokens ++ mark :: later, hjoins.more hitem hitems, ?_⟩
      rw [List.map_cons, List.map_cons, String.intercalate_cons_cons, String.toList_append,
        String.toList_append, List.append_assoc]
      exact hsep _ hfit hspells hlater

/-- Texts with a mark between them spell tokens that derive a list of items. -/
theorem spelled_marked {α : Type} {derives : List String → α → Prop}
    {derivesAll : List String → List α → Prop} {mark sep : String} {text : α → String}
    (hjoins : JoinsItems mark derives derivesAll) (hmark : Marks sep.toList [mark])
    {items : List α} (hne : items ≠ []) (h : ∀ item ∈ items, Spelled derives item (text item)) :
    Spelled derivesAll items (sep.intercalate (items.map text)) :=
  spelled_items hjoins (fun _ _ ha hb => ha.append hmark (hmark.append hb)) hne h
    (List.pairwise_of_forall fun _ _ => trivial).isChain

/-- A name that a vocabulary writes is read as the token that it is. -/
theorem nameToken_of_writes {n : Name} (h : v.writes n = true) : NameToken v n.text n := by
  obtain ⟨hword, hregistered⟩ := Vocabulary.writes_iff.1 h
  obtain ⟨hreserved, hsign⟩ := isName_of_isWord hword
  exact ⟨hreserved, hsign, rfl, hregistered⟩

/-- The written form of a tag spells tokens that derive the tag. -/
theorem spelled_tag (hstyle : Legible style) :
    ∀ t : Tag, t.allNames v.writes = true → Spelled (DerivesTag v) t (t.text style)
  | .mk n ts, h => by
    rw [Tag.allNames_mk, Bool.and_eq_true, List.all_eq_true] at h
    have hname := nameToken_of_writes h.1
    have hword : Spells n.text.toList [n.text] :=
      spells_word n.nonempty (isWord_iff.1 (Vocabulary.isWord_of_writes n h.1)).2.2
    have harguments : ∀ t ∈ ts, Spelled (DerivesTag v) t (t.text style) :=
      fun t ht => spelled_tag hstyle t (h.2 t ht)
    cases ts with
    | nil => exact ⟨[n.text], .atom hname, hword⟩
    | cons t ts =>
      obtain ⟨inner, hts, hinner⟩ := 
        spelled_marked (joinsItems_tags ",") hstyle.sep (List.cons_ne_nil t ts) harguments
      refine ⟨n.text :: "(" :: (inner ++ [")"]), .applied hname hts, ?_⟩
      rw [Tag.text, ← Tag.texts.eq_2, Tag.texts_eq_map]
      simp only [String.toList_append, List.append_assoc]
      exact hword.append hstyle.lparen (hstyle.lparen.append (hinner.close hstyle.rparen))
termination_by t => sizeOf t

/-- Sorted texts are the texts of the same values in some order. -/
theorem exists_map_eq_sortTexts {α : Type} (text : α → String) (values : List α) :
    ∃ sorted : List α, sorted.Perm values ∧
      sorted.map text = TypeSet.sortTexts (values.map text) := by
  let precedes (a b : α) : Bool := (compare (text a) (text b)).isLE
  exact ⟨values.mergeSort precedes, List.mergeSort_perm _ _, List.map_mergeSort fun a _ b _ => rfl⟩

/-- The texts of a set are those of its members in some order. -/
theorem exists_map_text_eq (style : TextStyle) (s : TypeSet) :
    ∃ ts : List Tag, (∀ t, t ∈ ts ↔ t ∈ s) ∧
      ts.map (Tag.text style) = TypeSet.sortTexts (s.toList.map (Tag.text style)) := by
  obtain ⟨ts, hperm, htexts⟩ := exists_map_eq_sortTexts (Tag.text style) s.toList
  exact ⟨ts, fun t => hperm.mem_iff, htexts⟩

/-- The written form of a set spells tokens that derive the set, if the members
with the mark between alternatives do so in the order of their texts. -/
theorem spelled_set_of_tags {s : TypeSet}
    (h : ∀ ts : List Tag, ts ≠ [] → (∀ t ∈ ts, t ∈ s) →
      ts.map (Tag.text style) = TypeSet.sortTexts (s.toList.map (Tag.text style)) →
      Spelled (DerivesTags v "|") ts (style.alt.intercalate (ts.map (Tag.text style)))) :
    Spelled (DerivesSet v) s (TypeSet.text style s) := by
  obtain ⟨ts, hmem, htexts⟩ := exists_map_text_eq style s
  rw [TypeSet.text, ← htexts]
  cases hempty : s.isEmpty with
  | true =>
    have hsign : Spells "⊥".toList ["⊥"] :=
      spells_word (by decide) (List.all_eq_true.1 (by decide))
    rw [Ascending.isEmpty_iff.1 hempty]
    exact ⟨["⊥"], .empty rfl, hsign⟩
  | false =>
    obtain ⟨t, ht⟩ := Ascending.isEmpty_eq_false_iff.1 hempty
    have hne : ts ≠ [] := List.ne_nil_of_mem ((hmem t).2 ht)
    have hset : Ascending.ofList ts = s :=
      Ascending.ext_mem fun t => Ascending.mem_ofList.trans (hmem t)
    obtain ⟨tokens, hts, hspells⟩ := h ts hne (fun t ht => (hmem t).1 ht) htexts
    exact ⟨tokens, hset ▸ .ofTags hts, hspells⟩

/-- The written form of a set spells tokens that derive the set. -/
theorem spelled_set {s : TypeSet} (h : TypeSet.allNames v.writes s = true) :
    Spelled (DerivesSet v) s (TypeSet.text {} s) :=
  spelled_set_of_tags fun _ hne hmem _ => spelled_marked (joinsItems_tags "|") marks_bar hne
    fun t ht => spelled_tag legible_default t (List.all_eq_true.1 h t (hmem t ht))

/-- The written form of a signature spells tokens that derive the signature, if
those of its sets do so. -/
theorem spelled_signature (hstyle : Legible style) {s : Signature}
    (h : ∀ p ∈ s.parameters, Spelled (DerivesSet v) p (TypeSet.text style p)) :
    Spelled (DerivesSignature v) s (s.text style) := by
  obtain ⟨ps⟩ := s
  unfold Signature.text
  simp only [String.toList_append, List.append_assoc, Spelled]
  cases ps with
  | nil =>
    exact ⟨["(", ")"], .empty, hstyle.lparen.append (spells_nil.close hstyle.rparen)⟩
  | cons p ps =>
    obtain ⟨inner, hps, hinner⟩ :=
      spelled_marked joinsItems_sets hstyle.sep (List.cons_ne_nil p ps) h
    exact ⟨"(" :: (inner ++ [")"]), .ofSets hps,
      hstyle.lparen.append (hinner.close hstyle.rparen)⟩

end Writing

section Reading

/-- The token of a name in a text is a name that the vocabulary writes. -/
theorem NameToken.writes {token : String} {n : Name} (h : NameToken v token n)
    (htoken : IsToken token.toList) : v.writes n = true := by
  rw [Vocabulary.writes_iff, Name.isWord, h.text_eq]
  exact ⟨isWord_of_isToken htoken h.notReserved h.notEmptySign, h.registered⟩

mutual

/-- The vocabulary writes the names in a tag that tokens of a text derive. -/
theorem allNames_of_derivesTag {tokens : List String} {t : Tag} (h : DerivesTag v tokens t)
    (htokens : ∀ token ∈ tokens, IsToken token.toList) : t.allNames v.writes = true := by
  cases h with
  | atom hname =>
    rw [Tag.atom, Tag.allNames_mk, hname.writes (htokens _ List.mem_cons_self)]
    rfl
  | @applied token n inner ts hname hts =>
    have harguments := allNames_of_derivesTags hts
      fun token htoken => htokens token (by simp [htoken])
    rw [Tag.allNames_mk, hname.writes (htokens _ List.mem_cons_self), Bool.true_and,
      List.all_eq_true]
    exact harguments
termination_by (tokens.length, 0)

/-- The vocabulary writes the names in tags that tokens of a text derive. -/
theorem allNames_of_derivesTags {mark : String} {tokens : List String} {ts : List Tag}
    (h : DerivesTags v mark tokens ts) (htokens : ∀ token ∈ tokens, IsToken token.toList) :
    ∀ t ∈ ts, t.allNames v.writes = true := by
  intro u hu
  cases h with
  | one ht =>
    rw [List.mem_singleton.1 hu]
    exact allNames_of_derivesTag ht htokens
  | more ht hts =>
    rcases List.mem_cons.1 hu with rfl | hu
    · exact allNames_of_derivesTag ht fun token htoken => htokens token (by simp [htoken])
    · exact allNames_of_derivesTags hts
        (fun token htoken => htokens token (by simp [htoken])) u hu
termination_by (tokens.length, 1)

end

/-- The vocabulary writes the names in a set that tokens of a text derive. -/
theorem allNames_of_derivesSet {tokens : List String} {s : TypeSet} (h : DerivesSet v tokens s)
    (htokens : ∀ token ∈ tokens, IsToken token.toList) : TypeSet.allNames v.writes s = true := by
  cases h with
  | empty => rfl
  | ofTags hts =>
    exact List.all_eq_true.2 fun t ht =>
      allNames_of_derivesTags hts htokens t (Ascending.mem_ofList.1 ht)

/-- The vocabulary writes the names in sets that tokens of a text derive. -/
theorem allNames_of_derivesSets {tokens : List String} {ps : List TypeSet}
    (h : DerivesSets v tokens ps) (htokens : ∀ token ∈ tokens, IsToken token.toList) :
    ∀ p ∈ ps, TypeSet.allNames v.writes p = true := by
  intro q hq
  induction h with
  | one hp =>
    rw [List.mem_singleton.1 hq]
    exact allNames_of_derivesSet hp htokens
  | more hp hps ih =>
    rcases List.mem_cons.1 hq with rfl | hq
    · exact allNames_of_derivesSet hp fun token htoken => htokens token (by simp [htoken])
    · exact ih (fun token htoken => htokens token (by simp [htoken])) hq

/-- The vocabulary writes the names in a signature that tokens of a text
derive. -/
theorem allNames_of_derivesSignature {tokens : List String} {s : Signature}
    (h : DerivesSignature v tokens s) (htokens : ∀ token ∈ tokens, IsToken token.toList) :
    s.allNames v.writes = true := by
  cases h with
  | empty => rfl
  | ofSets hps =>
    exact List.all_eq_true.2 (allNames_of_derivesSets hps
      fun token htoken => htokens token (by simp [htoken]))

end Reading

end Surface

namespace Vocabulary

open Surface

variable {v : Vocabulary} {text : String}

section Inverse

/-- A tag whose names a vocabulary writes is read from its written form. -/
theorem readTag_text {t : Tag} (h : t.allNames v.writes = true) :
    v.readTag (t.text {}) = .ok t := by
  obtain ⟨tokens, hderives, hspells⟩ := spelled_tag legible_default t h
  rw [readTag_eq_ok_iff, tokenize_eq, hspells.tokensOf_eq]
  exact hderives

/-- A set whose names a vocabulary writes is read from its written form. -/
theorem readSet_text {s : TypeSet} (h : TypeSet.allNames v.writes s = true) :
    v.readSet (TypeSet.text {} s) = .ok s := by
  obtain ⟨tokens, hderives, hspells⟩ := spelled_set h
  rw [readSet_eq_ok_iff, tokenize_eq, hspells.tokensOf_eq]
  exact hderives

/-- A signature whose names a vocabulary writes is read from its written
form. -/
theorem readSignature_text {s : Signature} (h : s.allNames v.writes = true) :
    v.readSignature (s.text {}) = .ok s := by
  obtain ⟨tokens, hderives, hspells⟩ :=
    spelled_signature legible_default fun p hp => spelled_set (List.all_eq_true.1 h p hp)
  rw [readSignature_eq_ok_iff, tokenize_eq, hspells.tokensOf_eq]
  exact hderives

/-- A vocabulary writes the names in every tag that it reads. -/
theorem allNames_of_readTag {t : Tag} (h : v.readTag text = .ok t) : t.allNames v.writes = true :=
  allNames_of_derivesTag (readTag_eq_ok_iff.1 h) fun _ htoken => isToken_of_mem_tokenize htoken

/-- A vocabulary writes the names in every set that it reads. -/
theorem allNames_of_readSet {s : TypeSet} (h : v.readSet text = .ok s) :
    TypeSet.allNames v.writes s = true :=
  allNames_of_derivesSet (readSet_eq_ok_iff.1 h) fun _ htoken => isToken_of_mem_tokenize htoken

/-- A vocabulary writes the names in every signature that it reads. -/
theorem allNames_of_readSignature {s : Signature} (h : v.readSignature text = .ok s) :
    s.allNames v.writes = true :=
  allNames_of_derivesSignature (readSignature_eq_ok_iff.1 h)
    fun _ htoken => isToken_of_mem_tokenize htoken

end Inverse

/-- Writing and reading are inverse. An open vocabulary reads every tag, set and
signature whose names are words from its written form. Whatever a vocabulary
reads from a text has only words as its names, and reading its written form
gives the same value again. -/
theorem read_text (v : Vocabulary) :
    (v.closed = false →
        (∀ t : Tag, t.allNames Name.isWord = true → v.readTag (t.text {}) = .ok t) ∧
        (∀ s : TypeSet, TypeSet.allNames Name.isWord s = true →
          v.readSet (TypeSet.text {} s) = .ok s) ∧
        ∀ s : Signature, s.allNames Name.isWord = true → v.readSignature (s.text {}) = .ok s) ∧
      ∀ text : String,
        (∀ t, v.readTag text = .ok t →
          t.allNames Name.isWord = true ∧ v.readTag (t.text {}) = .ok t) ∧
        (∀ s, v.readSet text = .ok s →
          TypeSet.allNames Name.isWord s = true ∧ v.readSet (TypeSet.text {} s) = .ok s) ∧
        ∀ s, v.readSignature text = .ok s →
          s.allNames Name.isWord = true ∧ v.readSignature (s.text {}) = .ok s := by
  constructor
  · intro hopen
    have hwrites : ∀ n : Name, n.isWord = true → v.writes n = true := by
      intro n hn
      exact writes_iff.2 ⟨hn, by simp [hopen]⟩
    exact ⟨fun t ht => readTag_text (t.allNames_mono hwrites ht),
      fun s hs => readSet_text (TypeSet.allNames_mono hwrites hs),
      fun s hs => readSignature_text (s.allNames_mono hwrites hs)⟩
  · intro text
    refine ⟨fun t hread => ?_, fun s hread => ?_, fun s hread => ?_⟩
    · have hnames := allNames_of_readTag hread
      exact ⟨t.allNames_mono isWord_of_writes hnames, readTag_text hnames⟩
    · have hnames := allNames_of_readSet hread
      exact ⟨TypeSet.allNames_mono isWord_of_writes hnames, readSet_text hnames⟩
    · have hnames := allNames_of_readSignature hread
      exact ⟨Signature.allNames_mono isWord_of_writes hnames, readSignature_text hnames⟩

/-- A tag whose names begin or end with underscores. -/
def underscoreTag : Tag :=
  .mk ⟨"Pair", by decide⟩ [.atom ⟨"__", by decide⟩, .atom ⟨"a_", by decide⟩]

/-- A signature with an empty set and with an underscore next to a bar. -/
def underscoreSignature : Signature :=
  ⟨[∅, .ofList [.atom ⟨"__", by decide⟩, underscoreTag]]⟩

/-- Underscores next to bars are names: the signature is read from its written
form, and the tag from a text with other blanks and from its written form. -/
theorem read_text_underscores :
    ({} : Vocabulary).closed = false ∧ underscoreSignature.allNames Name.isWord = true ∧
      ({} : Vocabulary).readSignature (underscoreSignature.text {}) = .ok underscoreSignature ∧
      ({} : Vocabulary).readTag "Pair ( __ ,a_)" = .ok underscoreTag ∧
      ({} : Vocabulary).readTag (underscoreTag.text {}) = .ok underscoreTag := by
  have hwords : underscoreSignature.allNames Name.isWord = true := by decide
  have hname (n : Name) (h : ({} : Vocabulary).writes n = true) : NameToken {} n.text n :=
    nameToken_of_writes h
  have hread : ({} : Vocabulary).readTag "Pair ( __ ,a_)" = .ok underscoreTag := by
    have htokens : tokenize "Pair ( __ ,a_)" = ["Pair", "(", "__", ",", "a_", ")"] := by decide
    have harguments : DerivesTags {} "," (["__"] ++ "," :: ["a_"])
        [.atom ⟨"__", by decide⟩, .atom ⟨"a_", by decide⟩] :=
      .more (.atom (hname ⟨"__", by decide⟩ (by decide)))
        (.one (.atom (hname ⟨"a_", by decide⟩ (by decide))))
    rw [readTag_eq_ok_iff, htokens]
    exact .applied (hname ⟨"Pair", by decide⟩ (by decide)) harguments
  obtain ⟨hwritten, hwhatever⟩ := read_text {}
  exact ⟨rfl, hwords, (hwritten rfl).2.2 underscoreSignature hwords, hread,
    ((hwhatever "Pair ( __ ,a_)").1 underscoreTag hread).2⟩

end Vocabulary

end DispatchCoverage

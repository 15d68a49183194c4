import DispatchCoverage.Proofs.WrittenForm
import Mathlib

/-!
# Written forms without spaces

The spaces around separators are optional with one exception. A bar between two
underscores is part of a sign of the empty set, so a set is read from its
compact form exactly if no bar in it stands between two underscores. In the
other direction the signs are counted: the tokens of a signature hold one for
each of its empty sets, and such a bar brings one more.
-/

namespace DispatchCoverage

/-- The style without spaces around the separators. -/
def TextStyle.compact : TextStyle := { sep := ",", alt := "|" }

/-- A bar can stand between two texts when it does not stand between two
underscores. -/
def BarFits (a b : String) : Prop := a.toList.getLast? = some '_' → b.toList.head? ≠ some '_'

instance : DecidableRel BarFits := fun a b =>
  inferInstanceAs (Decidable (a.toList.getLast? = some '_' → b.toList.head? ≠ some '_'))

/-- A set is compactible when bars can stand between the texts of its members, in
the order in which these are written. -/
def TypeSet.Compactible (s : TypeSet) : Prop :=
  (TypeSet.sortTexts (s.toList.map (Tag.text .compact))).IsChain BarFits

instance (s : TypeSet) : Decidable s.Compactible :=
  inferInstanceAs (Decidable (List.IsChain BarFits _))

/-- Texts in ascending order stay in their order. -/
theorem TypeSet.sortTexts_of_pairwise {texts : List String}
    (h : texts.Pairwise fun a b => (compare a b).isLE) : TypeSet.sortTexts texts = texts :=
  List.mergeSort_of_pairwise h

namespace Surface

variable {v : Vocabulary} {style : TextStyle}

/-- The compact style is legible. -/
theorem legible_compact : Legible .compact := ⟨marks_open, marks_close, marks_comma⟩

section Bars

/-- Texts with bars between them begin with an underscore when the first of them
does. -/
theorem head?_intercalate_bar (a : String) (texts : List String) :
    ("|".intercalate (a :: texts)).toList.head? = some '_' ↔ a.toList.head? = some '_' := by
  cases texts with
  | nil => rw [String.intercalate_singleton]
  | cons b texts =>
    rw [String.intercalate_cons_cons, String.toList_append, String.toList_append]
    cases a.toList <;> simp

/-- A bar that can stand between two texts leaves their tokens as they are. -/
theorem spells_bar_intercalate {a b : String} {s t : List String} (texts : List String)
    (hbar : BarFits a b) (ha : Spells a.toList s)
    (hb : Spells ("|".intercalate (b :: texts)).toList t) :
    Spells (a.toList ++ ("|".toList ++ ("|".intercalate (b :: texts)).toList)) (s ++ "|" :: t) :=
  ha.bar hb fun hlast => mt (head?_intercalate_bar b texts).1 (hbar hlast)

/-- Where a bar cannot stand between two texts, it is part of a sign of the empty
set. -/
theorem sign_infix_intercalate {texts : List String} (h : ¬ texts.IsChain BarFits) :
    ['_', '|', '_'] <:+: ("|".intercalate texts).toList := by
  induction texts with
  | nil => exact absurd .nil h
  | cons a texts ih =>
    cases texts with
    | nil => exact absurd (.singleton a) h
    | cons b texts =>
      rw [String.intercalate_cons_cons, String.toList_append, String.toList_append]
      rw [List.isChain_cons_cons, not_and_or] at h
      rcases h with hbar | hlater
      · obtain ⟨hlast, hfirst⟩ : a.toList.getLast? = some '_' ∧ b.toList.head? = some '_' := by
          simpa [BarFits] using hbar
        obtain ⟨earlier, hearlier⟩ := List.getLast?_eq_some_iff.1 hlast
        obtain ⟨later, hlater⟩ :=
          List.head?_eq_some_iff.1 ((head?_intercalate_bar b texts).2 hfirst)
        exact ⟨earlier, later, by simp [hearlier, hlater]⟩
      · exact (ih hlater).trans (List.suffix_append _ _).isInfix

/-- The compact form of a compactible set spells tokens that derive the set. -/
theorem spelled_set_compact {s : TypeSet} (h : TypeSet.allNames v.writes s = true)
    (hcompact : s.Compactible) : Spelled (DerivesSet v) s (TypeSet.text .compact s) := by
  refine spelled_set_of_tags fun ts hne hmem htexts => ?_
  have htags : ∀ t ∈ ts, Spelled (DerivesTag v) t (t.text .compact) := fun t ht =>
    spelled_tag legible_compact t (List.all_eq_true.1 h t (hmem t ht))
  have hfits : (ts.map (Tag.text .compact)).IsChain BarFits := htexts ▸ hcompact
  exact spelled_items (joinsItems_tags "|") spells_bar_intercalate hne htags hfits

end Bars

section Signs

/-- The number of signs of the empty set among some tokens. -/
def signs (tokens : List String) : ℕ := tokens.countP isEmptySign

/-- A token is a sign of the empty set or does not count. -/
@[simp] theorem signs_cons (token : String) (tokens : List String) :
    signs (token :: tokens) = (isEmptySign token).toNat + signs tokens := by
  rw [signs, List.countP_cons, Nat.add_comm]
  cases isEmptySign token <;> rfl

/-- Signs are counted part by part. -/
@[simp] theorem signs_append (tokens later : List String) :
    signs (tokens ++ later) = signs tokens + signs later :=
  List.countP_append

/-- No tokens hold no signs. -/
@[simp] theorem signs_nil : signs [] = 0 := rfl

/-- A separator is no sign of the empty set. -/
theorem isEmptySign_separator :
    isEmptySign "(" = false ∧ isEmptySign ")" = false ∧ isEmptySign "," = false ∧
      isEmptySign "|" = false := by
  decide

mutual

/-- The tokens of a tag hold no sign of the empty set. -/
theorem signs_of_derivesTag {tokens : List String} {t : Tag} (h : DerivesTag v tokens t) :
    signs tokens = 0 := by
  cases h with
  | atom hname => simp [hname.notEmptySign]
  | @applied token n inner ts hname hts =>
    have hinner := signs_of_derivesTags isEmptySign_separator.2.2.1 hts
    simp [hname.notEmptySign, hinner, isEmptySign_separator]
termination_by (tokens.length, 0)

/-- The tokens of tags with a mark between them hold no sign of the empty set. -/
theorem signs_of_derivesTags {mark : String} (hmark : isEmptySign mark = false)
    {tokens : List String} {ts : List Tag} (h : DerivesTags v mark tokens ts) :
    signs tokens = 0 := by
  cases h with
  | one ht => exact signs_of_derivesTag ht
  | more ht hts =>
    simp [signs_of_derivesTag ht, hmark, signs_of_derivesTags hmark hts]
termination_by (tokens.length, 1)

end

/-- The tokens of a set hold a sign of the empty set exactly if the set is
empty. -/
theorem signs_of_derivesSet {tokens : List String} {s : TypeSet} (h : DerivesSet v tokens s) :
    signs tokens = s.isEmpty.toNat := by
  cases h with
  | empty hsign =>
    rw [signs_cons, hsign]
    rfl
  | @ofTags tokens ts hts =>
    obtain ⟨t, ht⟩ : ∃ t, t ∈ ts := by
      cases hts <;> exact ⟨_, List.mem_cons_self⟩
    have hmember : (Ascending.ofList ts).isEmpty = false :=
      Ascending.isEmpty_eq_false_iff.2 ⟨t, Ascending.mem_ofList.2 ht⟩
    rw [signs_of_derivesTags isEmptySign_separator.2.2.2 hts, hmember]
    rfl

/-- The tokens of sets hold a sign of the empty set for each set that is empty. -/
theorem signs_of_derivesSets {tokens : List String} {ps : List TypeSet}
    (h : DerivesSets v tokens ps) : signs tokens = (ps.map fun p => p.isEmpty.toNat).sum := by
  induction h with
  | one hp => simp [signs_of_derivesSet hp]
  | more hp hps ih => simp [signs_of_derivesSet hp, isEmptySign_separator, ih]

/-- The tokens of a signature hold a sign of the empty set for each of its sets
that is empty. -/
theorem signs_of_derivesSignature {tokens : List String} {s : Signature}
    (h : DerivesSignature v tokens s) :
    signs tokens = (s.parameters.map fun p => p.isEmpty.toNat).sum := by
  cases h with
  | empty => rfl
  | ofSets hps => simp [isEmptySign_separator, signs_of_derivesSets hps]

/-- Texts with the mark of a style between them hold the signs of the empty set
that each of them holds. -/
theorem signs_intercalate (hstyle : Legible style) (texts : List String) :
    signs (tokensOf (style.sep.intercalate texts).toList) =
      (texts.map fun text => signs (tokensOf text.toList)).sum := by
  induction texts with
  | nil => rfl
  | cons text texts ih =>
    cases texts with
    | nil => simp
    | cons other texts =>
      rw [String.intercalate_cons_cons, String.toList_append, String.toList_append,
        List.append_assoc, hstyle.sep.tokensOf_append, signs_append, signs_append, ih]
      simp [isEmptySign_separator]

/-- The written form of a signature holds the signs of the empty set that the
written forms of its sets hold. -/
theorem signs_text (hstyle : Legible style) (s : Signature) :
    signs (tokensOf (s.text style).toList) =
      (s.parameters.map fun p => signs (tokensOf (TypeSet.text style p).toList)).sum := by
  have hbrackets : tokensOf (s.text style).toList =
      ["("] ++ (tokensOf (style.sep.intercalate (s.parameters.map (TypeSet.text style))).toList ++
        ([")"] ++ tokensOf [])) := by
    rw [Signature.text, String.toList_append, String.toList_append, List.append_assoc,
      hstyle.lparen.spells, ← hstyle.rparen.tokensOf_append, List.append_nil]
  have hnone : tokensOf [] = [] := rfl
  rw [hbrackets, signs_append, signs_append, signs_intercalate hstyle, List.map_map, hnone]
  simp [isEmptySign_separator, Function.comp_def]

/-- The written form of an empty set holds a sign of the empty set. -/
theorem isEmpty_le_signs (p : TypeSet) :
    p.isEmpty.toNat ≤ signs (tokensOf (TypeSet.text style p).toList) := by
  cases hempty : p.isEmpty with
  | false => exact Nat.zero_le _
  | true =>
    rw [TypeSet.text, if_pos hempty]
    decide

/-- The compact form of a set that is not compactible holds a sign of the empty
set that does not stand for the set. -/
theorem isEmpty_lt_signs {p : TypeSet} (h : ¬ p.Compactible) :
    p.isEmpty.toNat < signs (tokensOf (TypeSet.text .compact p).toList) := by
  have hne : p.isEmpty = false := by
    rw [Bool.eq_false_iff]
    intro hempty
    rw [Ascending.isEmpty_iff.1 hempty] at h
    exact h (by simp [TypeSet.Compactible, TypeSet.sortTexts])
  have hsign := sign_mem_tokensOf (sign_infix_intercalate h)
  rw [TypeSet.text, hne, if_neg Bool.false_ne_true]
  exact List.countP_pos_iff.2 ⟨"⊥", hsign, by decide⟩

end Signs

end Surface

namespace Vocabulary

open Surface

variable {v : Vocabulary}

/-- A set whose names a vocabulary writes is read from its compact form exactly if
it is compactible. -/
theorem readSet_compact_iff {s : TypeSet} (h : TypeSet.allNames v.writes s = true) :
    v.readSet (TypeSet.text .compact s) = .ok s ↔ s.Compactible := by
  rw [readSet_eq_ok_iff, tokenize_eq]
  constructor
  · intro hderives
    by_contra hcompact
    exact absurd (signs_of_derivesSet hderives) (isEmpty_lt_signs hcompact).ne'
  · intro hcompact
    obtain ⟨tokens, hderives, hspells⟩ := spelled_set_compact h hcompact
    rwa [hspells.tokensOf_eq]

/-- A signature whose names a vocabulary writes is read from its compact form
exactly if all its sets are compactible. -/
theorem readSignature_compact_iff {s : Signature} (h : s.allNames v.writes = true) :
    v.readSignature (s.text .compact) = .ok s ↔ ∀ p ∈ s.parameters, p.Compactible := by
  rw [readSignature_eq_ok_iff, tokenize_eq]
  constructor
  · intro hderives p hp
    by_contra hcompact
    have hless := List.sum_lt_sum (fun p => p.isEmpty.toNat)
      (fun p => signs (tokensOf (TypeSet.text .compact p).toList))
      (fun q _ => isEmpty_le_signs q) ⟨p, hp, isEmpty_lt_signs hcompact⟩
    rw [← signs_text legible_compact, signs_of_derivesSignature hderives] at hless
    exact absurd hless (lt_irrefl _)
  · intro hcompact
    obtain ⟨tokens, hderives, hspells⟩ := spelled_signature legible_compact fun p hp =>
      spelled_set_compact (List.all_eq_true.1 h p hp) (hcompact p hp)
    rwa [hspells.tokensOf_eq]

/-- The spaces around separators are optional, except around a bar between two
underscores. An open vocabulary reads every set and signature whose names are
words from its compact form as the same value, exactly if no bar there stands
between two underscores. -/
theorem read_compact (v : Vocabulary) (hopen : v.closed = false) :
    (∀ s : TypeSet, TypeSet.allNames Name.isWord s = true →
        (v.readSet (TypeSet.text .compact s) = .ok s ↔ s.Compactible)) ∧
      ∀ s : Signature, s.allNames Name.isWord = true →
        (v.readSignature (s.text .compact) = .ok s ↔ ∀ p ∈ s.parameters, p.Compactible) := by
  have hwrites : ∀ n : Name, n.isWord = true → v.writes n = true := by
    intro n hn
    exact writes_iff.2 ⟨hn, by simp [hopen]⟩
  exact ⟨fun s hs => readSet_compact_iff (TypeSet.allNames_mono hwrites hs),
    fun s hs => readSignature_compact_iff (s.allNames_mono hwrites hs)⟩

/-- A signature with an empty set, with a name of underscores alone and with names
that begin or end with one. -/
def apartSignature : Signature :=
  ⟨[∅, .ofList [.atom ⟨"___", by decide⟩, .atom ⟨"A_", by decide⟩, .atom ⟨"Mid", by decide⟩],
    .ofList [.mk ⟨"Box", by decide⟩ [.atom ⟨"___", by decide⟩], .atom ⟨"_x", by decide⟩]]⟩

/-- No bar stands between two underscores in the compact form of the signature,
and the signature is read from it. -/
theorem read_compact_apart :
    ({} : Vocabulary).closed = false ∧ apartSignature.allNames Name.isWord = true ∧
      apartSignature.text .compact = "(⊥,A_|Mid|___,Box(___)|_x)" ∧
      ({} : Vocabulary).readSignature (apartSignature.text .compact) = .ok apartSignature := by
  have hwords : apartSignature.allNames Name.isWord = true := by decide
  have hsorted : ∀ p ∈ apartSignature.parameters,
      (p.toList.map (Tag.text .compact)).Pairwise fun a b => (compare a b).isLE := by
    decide
  have hcompact : ∀ p ∈ apartSignature.parameters, p.Compactible := by
    intro p hp
    have hfits : ∀ p ∈ apartSignature.parameters,
        (p.toList.map (Tag.text .compact)).IsChain BarFits := by
      decide
    rw [TypeSet.Compactible, TypeSet.sortTexts_of_pairwise (hsorted p hp)]
    exact hfits p hp
  have hwritten : ∀ p ∈ apartSignature.parameters, TypeSet.text .compact p =
      if p.isEmpty then "⊥" else "|".intercalate (p.toList.map (Tag.text .compact)) := by
    intro p hp
    rw [TypeSet.text, TypeSet.sortTexts_of_pairwise (hsorted p hp)]
    rfl
  have htext : apartSignature.text .compact = "(⊥,A_|Mid|___,Box(___)|_x)" := by
    rw [Signature.text, List.map_congr_left hwritten]
    decide
  exact ⟨rfl, hwords, htext, ((read_compact {} rfl).2 apartSignature hwords).2 hcompact⟩

/-- A set of two names with underscores on the sides that meet. -/
def meetingSet : TypeSet := .ofList [.atom ⟨"A_", by decide⟩, .atom ⟨"_B", by decide⟩]

/-- A bar between two underscores is read as part of a sign of the empty set. The
set is rejected for this sign, though all its names are words and none is a lone
underscore. -/
theorem read_compact_meeting :
    ({} : Vocabulary).closed = false ∧
      TypeSet.allNames (fun n => n.isWord && n.text != "_") meetingSet = true ∧
      TypeSet.text .compact meetingSet = "A_|_B" ∧
      ({} : Vocabulary).readSet (TypeSet.text .compact meetingSet) =
        .error (.unexpected "⊥") := by
  have htext : TypeSet.text .compact meetingSet = "A_|_B" := by
    rw [TypeSet.text, TypeSet.sortTexts_of_pairwise (by decide)]
    decide
  have htokens : tokenize "A_|_B" = ["A"] ++ ["⊥", "B"] := by decide
  have hfirst : DerivesSet {} ["A"] (.ofList [.atom ⟨"A", by decide⟩]) :=
    .ofTags (.one (.atom (nameToken_of_open rfl ⟨"A", by decide⟩ (by decide))))
  have hends : EndsBefore ["A"] ["⊥", "B"] := endsBefore_cons (by decide) _
  have hread := outcome_parseSet_append hfirst hends (by decide)
  refine ⟨rfl, by decide, htext, ?_⟩
  rw [htext, readSet, htokens]
  exact Parsed.complete_of_outcome_cons hread

end Vocabulary

end DispatchCoverage

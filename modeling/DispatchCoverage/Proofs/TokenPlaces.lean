import Mathlib.Logic.Relation
import DispatchCoverage.Proofs.Scanning

/-!
# Where tokens stand

The tokens of a text are described by their places: at a place stands a special
character, or a run of ordinary characters that cannot be made longer at either
end. Splitting a text yields the tokens of all places in ascending order, after each
`_|_` is replaced from left to right. So no token is empty, nothing but blanks is
lost, and a blank at an end, next to another blank or next to a special character
makes no difference.
-/

namespace DispatchCoverage

/-- A text results from another one by replacing every occurrence of a part, where
occurrences are found from left to right and none reaches into another. -/
inductive Text.Replaces (old new : List Char) : List Char → List Char → Prop
  /-- A text without the part stays as it is. -/
  | done {cs : List Char} (h : ¬old <:+: cs) : Replaces old new cs cs
  /-- The first occurrence is replaced, and then those in the text behind it. -/
  | first {earlier later replaced : List Char} (h : ¬old <:+: earlier ++ old.dropLast)
    (hlater : Replaces old new later replaced) :
    Replaces old new (earlier ++ (old ++ later)) (earlier ++ (new ++ replaced))

namespace Surface

variable {specials : List Char} {c w : Char} {a b cs ds run before token after later : List Char}
  {place : Nat}

/-! ## Signs of the empty set -/

/-- A text without a sign of the empty set stays as it is. -/
theorem setApart_of_no_sign (h : ¬['_', '|', '_'] <:+: cs) : setApart cs = cs := by
  induction cs using setApart.induct with
  | case1 => rfl
  | case2 later => exact absurd ⟨[], later, rfl⟩ h
  | case3 c later hnone ih =>
    rw [setApart.eq_3 c later hnone, ih fun hlater => h (hlater.trans (List.suffix_cons c _).isInfix)]

/-- The first sign of the empty set is set apart. -/
theorem setApart_first (h : ¬['_', '|', '_'] <:+: a ++ ['_', '|']) :
    setApart (a ++ '_' :: '|' :: '_' :: b) = a ++ ' ' :: '⊥' :: ' ' :: setApart b := by
  induction a with
  | nil => rfl
  | cons c a ih =>
    have hbehind : ¬['_', '|', '_'] <:+: a ++ ['_', '|'] :=
      fun hbehind => h (hbehind.trans (List.suffix_cons c _).isInfix)
    rw [List.cons_append, setApart.eq_3, ih hbehind, List.cons_append]
    -- a sign that begins here would end before the first one does
    rintro later rfl heq
    have hsign : ['_', '|', '_'] <+: ('_' :: a ++ ['_', '|']) ++ '_' :: b :=
      ⟨later, by simpa using heq.symm⟩
    exact h (List.prefix_of_prefix_length_le hsign (List.prefix_append _ _) (by simp)).isInfix

/-- Setting the signs of the empty set apart replaces them. -/
theorem replaces_setApart (cs : List Char) :
    Text.Replaces ['_', '|', '_'] [' ', '⊥', ' '] cs (setApart cs) := by
  induction cs using setApart.induct with
  | case1 => exact .done (by simp)
  | case2 later ih =>
    rw [setApart]
    exact @Text.Replaces.first _ _ [] later _ (by decide) ih
  | case3 c later hnone ih =>
    rw [setApart.eq_3 c later hnone]
    generalize setApart later = replaced at ih
    cases ih with
    | done h =>
      refine .done fun hsign => ?_
      rcases List.infix_cons_iff.1 hsign with ⟨rest, hrest⟩ | hlater
      · obtain ⟨rfl, htail⟩ := List.cons.inj hrest
        exact hnone rest rfl htail.symm
      · exact h hlater
    | @first earlier later replaced h hlater =>
      refine @Text.Replaces.first _ _ (c :: earlier) later _ (fun hsign => ?_) hlater
      rcases List.infix_cons_iff.1 hsign with hfirst | hbehind
      · have hwhole : ['_', '|', '_'] <+: c :: (earlier ++ (['_', '|', '_'] ++ later)) := by
          refine hfirst.trans ⟨'_' :: later, ?_⟩
          simp
        obtain ⟨rest, hrest⟩ := hwhole
        obtain ⟨rfl, htail⟩ := List.cons.inj hrest
        exact hnone rest rfl htail.symm
      · exact h hbehind

/-- Replacing the signs of the empty set has one result. -/
theorem replaces_iff :
    Text.Replaces ['_', '|', '_'] [' ', '⊥', ' '] cs ds ↔ ds = setApart cs := by
  constructor
  · intro h
    induction h with
    | done h => exact (setApart_of_no_sign h).symm
    | first h _ ih => rw [ih]; exact (setApart_first h).symm
  · rintro rfl
    exact replaces_setApart cs

/-! ## Places -/

/-- A part of a text is a token where it stands: a special character that is not
blank, or a run of ordinary characters with none in front of it and none behind
it. -/
inductive IsTokenBetween (specials before : List Char) : List Char → List Char → Prop
  /-- A special character. -/
  | special {c : Char} {after : List Char} (hmem : c ∈ specials) (hblank : Text.isBlank c = false) :
    IsTokenBetween specials before [c] after
  /-- A longest run of ordinary characters. -/
  | run {token after : List Char} (hne : token ≠ [])
    (hordinary : ∀ c ∈ token, isOrdinary specials c = true)
    (hbefore : ∀ c ∈ before.getLast?, isOrdinary specials c = false)
    (hafter : ∀ c ∈ after.head?, isOrdinary specials c = false) :
    IsTokenBetween specials before token after

/-- A token stands at a place of a text, counted by the characters in front of
it. -/
def StandsAt (specials cs : List Char) (place : Nat) (token : List Char) : Prop :=
  ∃ before after, cs = before ++ (token ++ after) ∧ before.length = place ∧
    IsTokenBetween specials before token after

/-- A token has at least one character. -/
theorem IsTokenBetween.ne_nil (h : IsTokenBetween specials before token after) : token ≠ [] := by
  cases h with
  | special => exact List.cons_ne_nil _ _
  | run hne => exact hne

/-- A token that stands in a text has at least one character. -/
theorem StandsAt.ne_nil (h : StandsAt specials cs place token) : token ≠ [] := by
  obtain ⟨_, _, _, _, htoken⟩ := h
  exact htoken.ne_nil

/-- A place lies in the text. -/
theorem StandsAt.lt_length (h : StandsAt specials cs place token) : place < cs.length := by
  obtain ⟨before, after, rfl, rfl, htoken⟩ := h
  have hpos := List.length_pos_iff.2 htoken.ne_nil
  simp only [List.length_append]
  omega

/-- What stands in the first of two separate texts stands there in both together. -/
theorem StandsAt.append_right (h : Separate specials a b) (ha : StandsAt specials a place token) :
    StandsAt specials (a ++ b) place token := by
  obtain ⟨before, after, rfl, rfl, htoken⟩ := ha
  refine ⟨before, after ++ b, by simp, rfl, ?_⟩
  cases htoken with
  | special hmem hblank => exact .special hmem hblank
  | run hne hordinary hbefore hafter =>
    refine .run hne hordinary hbefore fun d hd => ?_
    cases after with
    | nil =>
      obtain ⟨run, c, rfl⟩ := (List.eq_nil_or_concat token).resolve_left hne
      have hboth := h c (by simp) d hd
      simpa [hordinary c (by simp)] using hboth
    | cons e after => exact hafter d hd

/-- What stands in the second of two separate texts stands behind the first one in
both together. -/
theorem StandsAt.append_left (h : Separate specials a b) (hb : StandsAt specials b place token) :
    StandsAt specials (a ++ b) (a.length + place) token := by
  obtain ⟨before, after, rfl, rfl, htoken⟩ := hb
  refine ⟨a ++ before, after, by simp, by simp, ?_⟩
  cases htoken with
  | special hmem hblank => exact .special hmem hblank
  | run hne hordinary hbefore hafter =>
    refine .run hne hordinary (fun c hc => ?_) hafter
    rcases List.eq_nil_or_concat before with rfl | ⟨before, e, rfl⟩
    · obtain ⟨d, run, rfl⟩ := List.exists_cons_of_ne_nil hne
      have hboth := h c (by simpa using hc) d rfl
      simpa [hordinary d List.mem_cons_self] using hboth
    · exact hbefore c (by simpa using hc)

/-- What stands behind a token need not be the whole text. -/
theorem IsTokenBetween.of_append_after (h : IsTokenBetween specials before token (after ++ b)) :
    IsTokenBetween specials before token after := by
  cases h with
  | special hmem hblank => exact .special hmem hblank
  | run hne hordinary hbefore hafter =>
    refine .run hne hordinary hbefore fun c hc => hafter c ?_
    rw [List.head?_append, Option.mem_def.1 hc]
    rfl

/-- What stands in front of a token need not be the whole text. -/
theorem IsTokenBetween.of_append_before (h : IsTokenBetween specials (a ++ before) token after) :
    IsTokenBetween specials before token after := by
  cases h with
  | special hmem hblank => exact .special hmem hblank
  | run hne hordinary hbefore hafter =>
    refine .run hne hordinary (fun c hc => hbefore c ?_) hafter
    rw [List.getLast?_append, Option.mem_def.1 hc]
    rfl

/-- No token lies across the place where two separate texts meet. -/
theorem IsTokenBetween.eq_nil_or_eq_nil {front back : List Char}
    (h : IsTokenBetween specials before (front ++ back) after)
    (hab : Separate specials (before ++ front) (back ++ after)) : front = [] ∨ back = [] := by
  rcases List.eq_nil_or_concat front with rfl | ⟨front, c, rfl⟩
  · exact .inl rfl
  rcases back with _ | ⟨d, back⟩
  · exact .inr rfl
  exfalso
  generalize htoken : front.concat c ++ d :: back = token at h
  cases h with
  | special =>
    have hlength := congrArg List.length htoken
    simp only [List.concat_eq_append, List.length_append, List.length_cons, List.length_nil]
      at hlength
    omega
  | run _ hordinary =>
    subst htoken
    exact hab c (by simp) d rfl ⟨hordinary c (by simp), hordinary d (by simp)⟩

/-- In two separate texts together stand the tokens of the first one, and behind it
those of the second one. -/
theorem standsAt_append (h : Separate specials a b) :
    StandsAt specials (a ++ b) place token ↔
      StandsAt specials a place token ∨ ∃ k, place = a.length + k ∧ StandsAt specials b k token := by
  constructor
  · rintro ⟨before, after, heq, rfl, htoken⟩
    rw [← List.append_assoc] at heq
    rcases List.append_eq_append_iff.1 heq with ⟨part, hbefore, rfl⟩ | ⟨part, rfl, rfl⟩
    · rcases List.append_eq_append_iff.1 hbefore with ⟨front, rfl, rfl⟩ | ⟨front, rfl, rfl⟩
      · rcases htoken.eq_nil_or_eq_nil h with rfl | rfl
        · refine .inr ⟨0, by simp, [], after, rfl, rfl, ?_⟩
          rw [← List.append_nil before] at htoken
          exact htoken.of_append_before
        · exact .inl ⟨before, [], by simp, rfl, IsTokenBetween.of_append_after htoken⟩
      · exact .inr ⟨front.length, by simp, front, after, by simp, rfl, htoken.of_append_before⟩
    · exact .inl ⟨before, part, by simp, rfl, htoken.of_append_after⟩
  · rintro (ha | ⟨k, rfl, hb⟩)
    · exact ha.append_right h
    · exact hb.append_left h

/-- No token stands in a text without characters. -/
theorem not_standsAt_nil : ¬StandsAt specials [] place token :=
  fun h => absurd h.lt_length (Nat.not_lt_zero _)

/-- A character that is not ordinary is the only token where it stands alone, unless
it is blank. -/
theorem standsAt_singleton (hc : isOrdinary specials c = false) :
    StandsAt specials [c] place token ↔ Text.isBlank c = false ∧ place = 0 ∧ token = [c] := by
  constructor
  · intro h
    have hplace := h.lt_length
    have hne := h.ne_nil
    obtain ⟨before, after, heq, rfl, htoken⟩ := h
    obtain rfl : before = [] := List.length_eq_zero_iff.1 (by simpa using hplace)
    obtain ⟨d, later, rfl⟩ := List.exists_cons_of_ne_nil hne
    obtain ⟨rfl, hlater⟩ := List.cons.inj heq
    obtain ⟨rfl, rfl⟩ := List.append_eq_nil_iff.1 hlater.symm
    cases htoken with
    | special _ hblank => exact ⟨hblank, rfl, rfl⟩
    | run _ hordinary => simp [hordinary c List.mem_cons_self] at hc
  · rintro ⟨hblank, rfl, rfl⟩
    have hmem : c ∈ specials := by simpa [isOrdinary, hblank] using hc
    exact ⟨[], [], rfl, rfl, .special hmem hblank⟩

/-- Ordinary characters alone are one token. -/
theorem standsAt_ordinary (hne : run ≠ [])
    (hrun : ∀ c ∈ run, isOrdinary specials c = true) :
    StandsAt specials run place token ↔ place = 0 ∧ token = run := by
  constructor
  · rintro ⟨before, after, rfl, rfl, htoken⟩
    cases htoken with
    | @special c _ hmem =>
      have hspecial := hrun c (by simp)
      rw [isOrdinary_of_mem hmem] at hspecial
      cases hspecial
    | run _ _ hbefore hafter =>
      have hnone : before = [] := List.getLast?_eq_none_iff.1 <| Option.eq_none_iff_forall_not_mem.2
        fun c hc => by simpa [hrun c (by simp [List.mem_of_getLast? hc])] using hbefore c hc
      have hnothing : after = [] := List.head?_eq_none_iff.1 <| Option.eq_none_iff_forall_not_mem.2
        fun c hc => by simpa [hrun c (by simp [List.mem_of_mem_head? hc])] using hafter c hc
      simp [hnone, hnothing]
  · rintro ⟨rfl, rfl⟩
    exact ⟨[], [], by simp, rfl, .run hne hrun (fun _ hc => nomatch hc) fun _ hc => nomatch hc⟩

/-! ## Tokens in order -/

/-- The tokens of a text are listed with their places, in the order of the places. -/
structure Lists (specials cs : List Char) (placed : List (Nat × List Char)) : Prop where
  /-- The places ascend. -/
  ascending : placed.Pairwise (·.1 < ·.1)
  /-- The list has just the tokens that stand in the text. -/
  mem_iff : ∀ e, e ∈ placed ↔ StandsAt specials cs e.1 e.2
  /-- Scanning the text yields these tokens. -/
  scanned_eq : scanned specials cs = placed.map Prod.snd

/-- The lists of two separate texts follow each other. -/
theorem Lists.append {pa pb : List (Nat × List Char)} (h : Separate specials a b)
    (ha : Lists specials a pa) (hb : Lists specials b pb) :
    Lists specials (a ++ b) (pa ++ pb.map fun e => (a.length + e.1, e.2)) where
  ascending := by
    refine List.pairwise_append.2 ⟨ha.ascending, ?_, fun e he f hf => ?_⟩
    · exact List.pairwise_map.2 (hb.ascending.imp fun hlt => Nat.add_lt_add_left hlt _)
    · obtain ⟨g, -, rfl⟩ := List.mem_map.1 hf
      exact Nat.lt_add_right _ ((ha.mem_iff e).1 he).lt_length
  mem_iff e := by
    rw [standsAt_append h, List.mem_append, ha.mem_iff, List.mem_map]
    refine or_congr_right ⟨?_, ?_⟩
    · rintro ⟨f, hf, rfl⟩
      exact ⟨f.1, rfl, (hb.mem_iff f).1 hf⟩
    · rintro ⟨k, hplace, hk⟩
      exact ⟨(k, e.2), (hb.mem_iff _).2 hk, Prod.ext hplace.symm rfl⟩
  scanned_eq := by
    rw [scanned_append h, ha.scanned_eq, hb.scanned_eq, List.map_append, List.map_map]
    rfl

/-- The tokens of every text can be listed. -/
theorem exists_lists (specials cs : List Char) : ∃ placed, Lists specials cs placed := by
  induction cs using piecewise specials with
  | nil =>
    exact ⟨[], .nil, fun e => by simp [not_standsAt_nil], rfl⟩
  | alone c rest hc ih =>
    obtain ⟨later, hlater⟩ := ih
    have hfirst : ∃ placed, Lists specials [c] placed := by
      cases hblank : Text.isBlank c with
      | true => exact ⟨[], .nil, by simp [standsAt_singleton hc, hblank], scanned_blank hblank⟩
      | false =>
        have hmem : c ∈ specials := by simpa [isOrdinary, hblank] using hc
        refine ⟨[(0, [c])], List.pairwise_singleton _ _, fun e => ?_, scanned_special hblank hmem⟩
        rw [standsAt_singleton hc, List.mem_singleton, Prod.ext_iff]
        exact (and_iff_right hblank).symm
    obtain ⟨first, hfirst⟩ := hfirst
    refine ⟨_, hfirst.append (b := rest) (fun d hd _ _ hboth => ?_) hlater⟩
    obtain rfl : c = d := by simpa using hd
    simp [hc] at hboth
  | run w rest hne hw hrest ih =>
    obtain ⟨later, hlater⟩ := ih
    have hfirst : Lists specials w [(0, w)] :=
      ⟨List.pairwise_singleton _ _,
        fun e => by rw [standsAt_ordinary hne hw, List.mem_singleton, Prod.ext_iff],
        scanned_run hne hw⟩
    exact ⟨_, hfirst.append (fun c _ d hd hboth => by simp [hrest d hd] at hboth) hlater⟩

/-! ## Blanks that make no difference -/

/-- A text is given one more blank: at an end, or next to another blank or a special
character. -/
inductive Spaces (specials : List Char) : List Char → List Char → Prop
  /-- A blank is put between two parts of the text. -/
  | insert {a b : List Char} {w : Char} (hblank : Text.isBlank w = true)
    (hplace : a = [] ∨ b = [] ∨
      ∃ c, (c ∈ a.getLast? ∨ c ∈ b.head?) ∧ (Text.isBlank c = true ∨ c ∈ specials)) :
    Spaces specials (a ++ b) (a ++ w :: b)

/-- A blank at such a place leaves the tokens as they are. -/
theorem Spaces.scanned_eq (h : Spaces specials cs ds) : scanned specials cs = scanned specials ds := by
  obtain @⟨a, b, w, hblank, hplace⟩ := h
  have hbehind : Separate specials a b := by
    intro c hc d hd hboth
    rcases hplace with rfl | rfl | ⟨e, he, hstop⟩
    · cases hc
    · cases hd
    · have hordinary : isOrdinary specials e = false :=
        hstop.elim isOrdinary_of_isBlank isOrdinary_of_mem
      rcases he with he | he
      · cases Option.mem_unique he hc
        simp [hordinary] at hboth
      · cases Option.mem_unique he hd
        simp [hordinary] at hboth
  have hsplit : scanned specials (a ++ w :: b) = scanned specials a ++ scanned specials (w :: b) :=
    scanned_append_of_head (by simpa using isOrdinary_of_isBlank hblank)
  rw [scanned_append hbehind, hsplit, scanned_blank hblank]

/-- Texts that differ only in such blanks have the same tokens. -/
theorem scanned_eq_of_eqvGen (h : Relation.EqvGen (Spaces specials) cs ds) :
    scanned specials cs = scanned specials ds := by
  induction h with
  | rel _ _ h => exact h.scanned_eq
  | refl _ => rfl
  | symm _ _ _ ih => exact ih.symm
  | trans _ _ _ _ _ hfirst hsecond => exact hfirst.trans hsecond

/-- The tokens of a text are those of its characters, where the signs of the empty
set are set apart. -/
theorem tokenize_eq_scanned (text specials : String) :
    tokenize text specials = (scanned specials.toList (setApart text.toList)).map String.ofList :=
  rfl

/-- The tokens of a text are the tokens that stand in it after each `_|_` was
replaced, in the order of their places. None of them is empty and together they are
that text without its blanks. Texts without `_|_` that differ only in blanks at an
end, next to another blank or next to a special character have the same tokens. -/
theorem tokens_stand_in_order (text specials : String) :
    ∃ apart,
      (∀ cs, Text.Replaces "_|_".toList " ⊥ ".toList text.toList cs ↔ cs = apart) ∧
      (∃ placed : List (Nat × List Char),
        placed.Pairwise (·.1 < ·.1) ∧
        (∀ e, e ∈ placed ↔ StandsAt specials.toList apart e.1 e.2) ∧
        tokenize text specials = placed.map fun e => String.ofList e.2) ∧
      (∀ token ∈ tokenize text specials, token ≠ "") ∧
      (tokenize text specials).flatMap String.toList = apart.filter (fun c => !Text.isBlank c) ∧
      ∀ other : String, ¬"_|_".toList <:+: text.toList → ¬"_|_".toList <:+: other.toList →
        Relation.EqvGen (Spaces specials.toList) text.toList other.toList →
        tokenize text specials = tokenize other specials := by
  obtain ⟨placed, hplaced⟩ := exists_lists specials.toList (setApart text.toList)
  have htokens : tokenize text specials = placed.map fun e => String.ofList e.2 := by
    rw [tokenize_eq_scanned, hplaced.scanned_eq, List.map_map]
    rfl
  refine ⟨setApart text.toList, fun cs => replaces_iff,
    ⟨placed, hplaced.ascending, hplaced.mem_iff, htokens⟩, fun token htoken hempty => ?_, ?_,
    fun other htext hother h => ?_⟩
  · rw [htokens] at htoken
    obtain ⟨e, he, rfl⟩ := List.mem_map.1 htoken
    exact ((hplaced.mem_iff e).1 he).ne_nil (String.ofList_eq_empty_iff.1 hempty)
  · rw [tokenize_eq_scanned, List.flatMap_map, ← flatten_scanned specials.toList]
    simp
  · rw [tokenize_eq_scanned, tokenize_eq_scanned, setApart_of_no_sign htext,
      setApart_of_no_sign hother, scanned_eq_of_eqvGen h]

/-- The blanks around a bar make no difference. -/
theorem tokens_stand_in_order_bar : tokenize "A |B" "(),|" = tokenize "A| B " "(),|" := by
  obtain ⟨-, -, -, -, -, hsame⟩ := tokens_stand_in_order "A |B" "(),|"
  have hbar : '|' ∈ "(),|".toList := by decide
  have hfront : Spaces "(),|".toList "A|B".toList "A |B".toList :=
    .insert (a := ['A']) (b := ['|', 'B']) (by decide) (.inr (.inr ⟨'|', .inr rfl, .inr hbar⟩))
  have hbehind : Spaces "(),|".toList "A|B".toList "A| B".toList :=
    .insert (a := ['A', '|']) (b := ['B']) (by decide) (.inr (.inr ⟨'|', .inl rfl, .inr hbar⟩))
  have hend : Spaces "(),|".toList "A| B".toList "A| B ".toList :=
    .insert (a := ['A', '|', ' ', 'B']) (b := []) (by decide) (.inr (.inl rfl))
  refine hsame "A| B " (by decide) (by decide) ?_
  exact ((Relation.EqvGen.rel _ _ hfront).symm _ _).trans _ _ _
    ((Relation.EqvGen.rel _ _ hbehind).trans _ _ _ (.rel _ _ hend))

end Surface

end DispatchCoverage

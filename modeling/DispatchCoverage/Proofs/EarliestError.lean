import DispatchCoverage.Proofs.Consumption

/-!
# Errors at the earliest token

With an open vocabulary, reading stops at the first token that nothing can be
made of. If reading fails at a token, the tokens in front of it could have been
extended to a phrase, while no phrase goes on with that token; and no token
behind it has been taken. If reading fails at the end, further tokens could have
completed the phrase.
-/

namespace DispatchCoverage.Surface

variable {v : Vocabulary}

/-- What a reader gives and leaves for some tokens. -/
abbrev Reader (α : Type) : Type :=
  List String → Except (ParseError × List String) (α × List String)

/-- Some tokens are the beginning of a phrase, or a whole one. -/
def Viable {α : Type} (derives : List String → α → Prop) (begun : List String) : Prop :=
  ∃ later value, derives (begun ++ later) value

/-- An error is found as early as possible: at the end of tokens that begin a
phrase, or at the first token behind such a beginning, whatever stands behind
that token. -/
inductive FoundEarly {α : Type} (derives : List String → α → Prop) (read : Reader α) :
    List String → ParseError → List String → Prop where
  /-- The tokens end too early. -/
  | atEnd {tokens : List String} {cause : ParseError} :
    cause = .emptyInput ∨ cause = .bracketMismatch → Viable derives tokens →
      FoundEarly derives read tokens cause []
  /-- A token does not go on with the phrase. -/
  | atToken {begun rest : List String} {token : String} {cause : ParseError} :
    cause = .unexpected token ∨ cause = .bracketMismatch → Viable derives begun →
      (∀ later, read (begun ++ token :: later) = .error (cause, later)) →
      FoundEarly derives read (begun ++ token :: rest) cause rest

/-- A reader settles its phrases: what it takes derives the value, and it would
take the same in front of anything that begins with the same token. -/
def Settles {α : Type} (derives : List String → α → Prop) (read : Reader α) : Prop :=
  ∀ tokens value left, read tokens = .ok (value, left) →
    ∃ taken, tokens = taken ++ left ∧ derives taken value ∧
      ∀ later, later.head? = left.head? → read (taken ++ later) = .ok (value, later)

section Composition

variable {α β : Type} {derives : List String → α → Prop} {read : Reader α}

/-- An error inside of a part of a phrase is found as early in the whole phrase,
if the reader of the whole phrase passes it on. -/
theorem FoundEarly.lift {outer : List String → β → Prop} {readOuter : Reader β}
    {tokens rest : List String} {cause : ParseError}
    (h : FoundEarly derives read tokens cause rest) (earlier : List String)
    (hviable : ∀ begun, Viable derives begun → Viable outer (earlier ++ begun))
    (hread : ∀ others cause rest, others.head? = tokens.head? →
      read others = .error (cause, rest) → readOuter (earlier ++ others) = .error (cause, rest)) :
    FoundEarly outer readOuter (earlier ++ tokens) cause rest := by
  cases h with
  | atEnd hcause hbegun => exact .atEnd hcause (hviable _ hbegun)
  | @atToken begun rest token cause hcause hbegun hlater =>
    rw [← List.append_assoc]
    refine .atToken hcause (hviable begun hbegun) fun later => ?_
    have hhead : (begun ++ token :: later).head? = (begun ++ token :: rest).head? := by
      cases begun <;> rfl
    rw [List.append_assoc]
    exact hread _ cause later hhead (hlater later)

end Composition

section Items

variable {α : Type} {derives : List String → α → Prop} {derivesAll : List String → List α → Prop}
  {read : Reader α} {readAll : Reader (List α)}

/-- A reader reads items with commas between them up to a closing bracket. -/
def ReadsItems (read : Reader α) (readAll : Reader (List α)) : Prop :=
  ∀ tokens, readAll tokens = (read tokens).bind fun (item, rest) =>
    match rest with
    | [] => .error (.bracketMismatch, [])
    | next :: more =>
      if next = "," then (readAll more).map fun (items, rest) => (item :: items, rest)
      else if next = ")" then .ok ([item], more)
      else .error (.bracketMismatch, more)

namespace ReadsItems

variable {tokens more : List String} {item : α} {next : String}

/-- An error in the first item ends the reading. -/
theorem refused (h : ReadsItems read readAll) {refusal : ParseError × List String}
    (hread : read tokens = .error refusal) : readAll tokens = .error refusal := by
  rw [h, hread]
  rfl

/-- The tokens must not end behind an item. -/
theorem atEnd (h : ReadsItems read readAll) (hread : read tokens = .ok (item, [])) :
    readAll tokens = .error (.bracketMismatch, []) := by
  rw [h, hread]
  rfl

/-- More items follow a comma. -/
theorem comma (h : ReadsItems read readAll) (hread : read tokens = .ok (item, "," :: more)) :
    readAll tokens = (readAll more).map fun (items, rest) => (item :: items, rest) := by
  rw [h, hread]
  rfl

/-- A closing bracket ends the items. -/
theorem close (h : ReadsItems read readAll) (hread : read tokens = .ok (item, ")" :: more)) :
    readAll tokens = .ok ([item], more) := by
  rw [h, hread]
  rfl

/-- Nothing else can follow an item. -/
theorem other (h : ReadsItems read readAll) (hread : read tokens = .ok (item, next :: more))
    (hcomma : next ≠ ",") (hclose : next ≠ ")") :
    readAll tokens = .error (.bracketMismatch, more) := by
  rw [h, hread]
  simp only [Except.bind, if_neg hcomma, if_neg hclose]

end ReadsItems

/-- The beginning of an item begins a list of items. -/
theorem Viable.items (hjoins : JoinsItems "," derives derivesAll) {begun : List String}
    (h : Viable derives begun) : Viable (Closed derivesAll) begun := by
  obtain ⟨later, item, hitem⟩ := h
  exact ⟨later ++ [")"], [item], begun ++ later, by rw [List.append_assoc], hjoins.one hitem⟩

/-- An item and a comma in front of the beginning of a list of items begin a
longer list. -/
theorem Viable.cons_items (hjoins : JoinsItems "," derives derivesAll) {taken begun : List String}
    {item : α} (hitem : derives taken item) (h : Viable (Closed derivesAll) begun) :
    Viable (Closed derivesAll) (taken ++ [","] ++ begun) := by
  obtain ⟨later, items, inner, hinner, hitems⟩ := h
  refine ⟨later, item :: items, taken ++ "," :: inner, ?_, hjoins.more hitem hitems⟩
  rw [List.append_assoc, hinner]
  simp

/-- Errors in a list of items are found early, if those in items are. -/
theorem foundEarly_items (hitems : ReadsItems read readAll)
    (hjoins : JoinsItems "," derives derivesAll) (hsettles : Settles derives read)
    {tokens rest : List String} {cause : ParseError}
    (hitem : ∀ others cause rest, others.length ≤ tokens.length →
      read others = .error (cause, rest) → FoundEarly derives read others cause rest)
    (h : readAll tokens = .error (cause, rest)) :
    FoundEarly (Closed derivesAll) readAll tokens cause rest := by
  cases hread : read tokens with
  | error refusal =>
    cases (hitems.refused hread).symm.trans h
    exact (hitem tokens cause rest (Nat.le_refl _) hread).lift []
      (fun _ => Viable.items hjoins) fun _ _ _ _ hothers => hitems.refused hothers
  | ok accepted =>
    obtain ⟨item, left⟩ := accepted
    obtain ⟨taken, htokens, hderives, hlater⟩ := hsettles tokens item left hread
    have htaken : Viable (Closed derivesAll) taken :=
      Viable.items hjoins ⟨[], item, by rwa [List.append_nil]⟩
    cases left with
    | nil =>
      cases (hitems.atEnd hread).symm.trans h
      rw [htokens, List.append_nil]
      exact .atEnd (.inr rfl) htaken
    | cons next more =>
      by_cases hcomma : next = ","
      · subst hcomma
        have hmore : readAll more = .error (cause, rest) :=
          map_eq_error_iff.1 ((hitems.comma hread).symm.trans h)
        have hshorter : more.length < tokens.length := by
          rw [htokens, List.length_append, List.length_cons]
          omega
        have hfound := foundEarly_items hitems hjoins hsettles
          (fun others cause rest hlength => hitem others cause rest (by omega)) hmore
        rw [htokens, List.append_cons]
        refine hfound.lift (taken ++ [","]) (fun _ => Viable.cons_items hjoins hderives) ?_
        intro others cause rest _ hothers
        rw [← List.append_cons, hitems.comma (hlater ("," :: others) rfl), hothers]
        rfl
      · by_cases hclose : next = ")"
        · subst hclose
          cases (hitems.close hread).symm.trans h
        · cases (hitems.other hread hcomma hclose).symm.trans h
          rw [htokens]
          exact .atToken (.inr rfl) htaken fun later =>
            hitems.other (hlater (next :: later) rfl) hcomma hclose
termination_by tokens.length

end Items

section Readers

/-- What reading a tag gives and leaves. -/
def tagReader (v : Vocabulary) : Reader Tag := fun tokens => (parseTag v tokens).outcome

/-- What reading arguments gives and leaves. -/
def argumentsReader (v : Vocabulary) : Reader (List Tag) :=
  fun tokens => (parseArguments v tokens).outcome

/-- What reading alternatives gives and leaves. -/
def alternativesReader (v : Vocabulary) : Reader (List Tag) :=
  fun tokens => (parseAlternatives v tokens).outcome

/-- What reading a set gives and leaves. -/
def setReader (v : Vocabulary) : Reader TypeSet := fun tokens => (parseSet v tokens).outcome

/-- What reading parameters gives and leaves. -/
def parametersReader (v : Vocabulary) : Reader (List TypeSet) :=
  fun tokens => (parseParameters v tokens).outcome

/-- What reading a signature gives and leaves. -/
def signatureReader (v : Vocabulary) : Reader Signature :=
  fun tokens => (parseSignature v tokens).outcome

/-- A name is read as a tag, with arguments exactly if an opening bracket follows
it. -/
theorem tagReader_name {token : String} {n : Name} (h : NameToken v token n)
    (rest : List String) :
    tagReader v (token :: rest) =
      if rest.head? = some "(" then
        (argumentsReader v rest.tail).map fun (ts, rest) => (Tag.mk n ts, rest)
      else .ok (Tag.atom n, rest) := by
  obtain ⟨hreserved, hsign, hname⟩ := nameToken_iff.1 h
  rw [tagReader, outcome_parseTag_cons, hreserved, hsign, hname]
  rfl

/-- Alternatives are read as tags with bars between them. -/
theorem alternativesReader_eq (tokens : List String) :
    alternativesReader v tokens =
      (tagReader v tokens).bind fun (t, rest) =>
        if rest.head? = some "|" then
          (alternativesReader v rest.tail).map fun (ts, rest) => (t :: ts, rest)
        else .ok ([t], rest) :=
  outcome_parseAlternatives tokens

/-- Parameters are read behind an opening bracket, unless a closing one follows. -/
theorem signatureReader_open {next : String} (h : next ≠ ")") (rest : List String) :
    signatureReader v ("(" :: next :: rest) =
      (parametersReader v (next :: rest)).map fun (ps, rest) => (⟨ps⟩, rest) := by
  rw [signatureReader, outcome_parseSignature_cons, if_pos rfl]
  dsimp only
  rw [if_neg h]
  rfl

/-- Arguments are read as tags with commas between them. -/
theorem readsItems_arguments : ReadsItems (tagReader v) (argumentsReader v) :=
  outcome_parseArguments

/-- Parameters are read as sets with commas between them. -/
theorem readsItems_parameters : ReadsItems (setReader v) (parametersReader v) :=
  outcome_parseParameters

/-- What is read as a tag ends in front of what is left. -/
theorem exists_taken_of_tagReader {tokens left : List String} {t : Tag}
    (h : tagReader v tokens = .ok (t, left)) :
    ∃ taken, tokens = taken ++ left ∧ DerivesTag v taken t ∧ EndsBefore taken left := by
  have hjustified := justified_parseTag (v := v) tokens
  rw [show (parseTag v tokens).outcome = _ from h] at hjustified
  obtain ⟨taken, rfl, hderives⟩ := hjustified
  refine ⟨taken, rfl, hderives, ?_⟩
  cases hatom : t.isAtom with
  | false => exact fun _ => hderives.getLast?_eq hatom
  | true =>
    -- a name in front of an opening bracket is read with the arguments behind it
    intro hbracket
    obtain ⟨inner, rfl⟩ := List.head?_eq_some_iff.1 hbracket
    cases hderives with
    | @atom token n htoken =>
      rw [List.singleton_append, tagReader_name htoken, if_pos hbracket] at h
      obtain ⟨⟨ts, rest⟩, hread, hpair⟩ := map_eq_ok_iff.1 h
      have hshorter := Parsed.length_lt_of_outcome hread
      cases hpair
      simp only [List.tail_cons, List.length_cons] at hshorter
      omega
    | applied htoken hts =>
      obtain ⟨u, us, rfl⟩ := List.exists_cons_of_ne_nil hts.ne_nil
      cases hatom

/-- Reading a tag settles it. -/
theorem settles_tag : Settles (DerivesTag v) (tagReader v) := by
  intro tokens t left h
  obtain ⟨taken, htokens, hderives, hends⟩ := exists_taken_of_tagReader h
  refine ⟨taken, htokens, hderives, fun later hlater => ?_⟩
  exact outcome_parseTag_append hderives fun hbracket => hends (hlater ▸ hbracket)

/-- What is read as alternatives ends in front of what is left, which is no
bar. -/
theorem exists_taken_of_alternativesReader {tokens left : List String} {ts : List Tag}
    (h : alternativesReader v tokens = .ok (ts, left)) :
    ∃ taken, tokens = taken ++ left ∧ DerivesTags v "|" taken ts ∧ EndsBefore taken left ∧
      left.head? ≠ some "|" := by
  rw [alternativesReader_eq] at h
  cases hread : tagReader v tokens with
  | error refusal =>
    rw [hread] at h
    cases h
  | ok accepted =>
    obtain ⟨t, behind⟩ := accepted
    obtain ⟨taken, htokens, ht, hends⟩ := exists_taken_of_tagReader hread
    rw [hread] at h
    simp only [Except.bind] at h
    by_cases hbar : behind.head? = some "|"
    · obtain ⟨more, rfl⟩ := List.head?_eq_some_iff.1 hbar
      have hmore : more.length < tokens.length := by
        rw [htokens, List.length_append, List.length_cons]
        omega
      rw [if_pos hbar] at h
      obtain ⟨⟨us, rest⟩, hlater, hpair⟩ := map_eq_ok_iff.1 h
      cases hpair
      obtain ⟨later, hmoreTokens, hus, hlaterEnds, hlast⟩ := exists_taken_of_alternativesReader hlater
      refine ⟨taken ++ "|" :: later, ?_, .more ht hus, (endsBefore_append_iff hus).2 hlaterEnds,
        hlast⟩
      rw [htokens, List.append_assoc, List.cons_append, ← hmoreTokens, List.tail_cons]
    · rw [if_neg hbar] at h
      cases h
      exact ⟨taken, htokens, .one ht, hends, hbar⟩
termination_by tokens.length

/-- Reading a set settles it. -/
theorem settles_set : Settles (DerivesSet v) (setReader v) := by
  intro tokens s left h
  cases tokens with
  | nil => cases outcome_parseSet_nil.symm.trans h
  | cons token rest =>
    rw [setReader, outcome_parseSet_cons] at h
    by_cases hsign : isEmptySign token = true
    · rw [if_pos hsign] at h
      cases h
      refine ⟨[token], rfl, .empty hsign, fun later _ => ?_⟩
      rw [setReader, List.singleton_append, outcome_parseSet_cons, if_pos hsign]
    · rw [if_neg hsign] at h
      obtain ⟨⟨ts, rest'⟩, hread, hpair⟩ := map_eq_ok_iff.1 h
      cases hpair
      obtain ⟨taken, htokens, hts, hends, hbar⟩ := exists_taken_of_alternativesReader hread
      refine ⟨taken, htokens, .ofTags hts, fun later hlater => ?_⟩
      exact outcome_parseSet_append (.ofTags hts) (fun hbracket => hends (hlater ▸ hbracket))
        (hlater ▸ hbar)

end Readers

section Errors

/-- A token that is no sign of its own stands for a name in an open vocabulary. -/
theorem exists_nameToken (hopen : v.closed = false) {token : String}
    (hsign : ¬ (isReserved token || isEmptySign token) = true) : ∃ n, NameToken v token n := by
  simp only [Bool.or_eq_true, not_or, Bool.not_eq_true] at hsign
  have hne : token ≠ "" := by
    rintro rfl
    exact absurd hsign.1 (by decide)
  exact ⟨⟨token, hne⟩, nameToken_of_open hopen ⟨token, hne⟩ hsign⟩

/-- With an open vocabulary, every tag begins with nothing. -/
theorem viable_nil_tag (hopen : v.closed = false) : Viable (DerivesTag v) [] := by
  have hsign : ¬ (isReserved "A" || isEmptySign "A") = true := by decide
  obtain ⟨n, hname⟩ := exists_nameToken hopen hsign
  exact ⟨["A"], .atom n, .atom hname⟩

/-- A name with an opening bracket in front of the beginning of arguments begins
a tag. -/
theorem Viable.applied {token : String} {n : Name} (hname : NameToken v token n)
    {begun : List String} (h : Viable (Closed (DerivesTags v ",")) begun) :
    Viable (DerivesTag v) ([token, "("] ++ begun) := by
  obtain ⟨later, ts, inner, hinner, hts⟩ := h
  refine ⟨later, .mk n ts, ?_⟩
  rw [List.append_assoc, hinner]
  exact .applied hname hts

/-- Errors in a tag are found early. -/
theorem foundEarly_tag (hopen : v.closed = false) {tokens rest : List String} {cause : ParseError}
    (h : tagReader v tokens = .error (cause, rest)) :
    FoundEarly (DerivesTag v) (tagReader v) tokens cause rest := by
  cases tokens with
  | nil =>
    cases outcome_parseTag_nil.symm.trans h
    exact .atEnd (.inl rfl) (viable_nil_tag hopen)
  | cons token behind =>
    by_cases hsign : (isReserved token || isEmptySign token) = true
    · have hrefused (later : List String) :
          tagReader v (token :: later) = .error (.unexpected token, later) := by
        rw [tagReader, outcome_parseTag_cons, if_pos hsign]
      cases (hrefused behind).symm.trans h
      rw [← List.nil_append (token :: rest)]
      exact .atToken (.inl rfl) (viable_nil_tag hopen) hrefused
    · obtain ⟨n, hname⟩ := exists_nameToken hopen hsign
      rw [tagReader_name hname] at h
      by_cases hbracket : behind.head? = some "("
      · obtain ⟨inner, rfl⟩ := List.head?_eq_some_iff.1 hbracket
        rw [if_pos hbracket] at h
        have hfound := foundEarly_items readsItems_arguments (joinsItems_tags ",") settles_tag
          (fun others cause rest hlength hothers =>
            have hshorter : others.length < (token :: "(" :: inner).length := by
              simp only [List.length_cons, List.tail_cons] at hlength ⊢
              omega
            foundEarly_tag hopen hothers)
          (map_eq_error_iff.1 h)
        refine hfound.lift [token, "("] (fun _ => Viable.applied hname) ?_
        intro others cause rest _ hothers
        rw [List.cons_append, tagReader_name hname, if_pos (by rfl)]
        exact map_eq_error_iff.2 hothers
      · rw [if_neg hbracket] at h
        cases h
termination_by tokens.length

/-- The beginning of a tag begins alternatives. -/
theorem Viable.alternatives {begun : List String} (h : Viable (DerivesTag v) begun) :
    Viable (DerivesTags v "|") begun := by
  obtain ⟨later, t, ht⟩ := h
  exact ⟨later, [t], .one ht⟩

/-- A tag and a bar in front of the beginning of alternatives begin more
alternatives. -/
theorem Viable.cons_alternatives {taken begun : List String} {t : Tag}
    (ht : DerivesTag v taken t) (h : Viable (DerivesTags v "|") begun) :
    Viable (DerivesTags v "|") (taken ++ ["|"] ++ begun) := by
  obtain ⟨later, ts, hts⟩ := h
  refine ⟨later, t :: ts, ?_⟩
  rw [List.append_assoc, List.append_assoc]
  exact .more ht hts

/-- Errors in alternatives are found early. -/
theorem foundEarly_alternatives (hopen : v.closed = false) {tokens rest : List String}
    {cause : ParseError} (h : alternativesReader v tokens = .error (cause, rest)) :
    FoundEarly (DerivesTags v "|") (alternativesReader v) tokens cause rest := by
  cases hfirst : tagReader v tokens with
  | error refusal =>
    have hrefused (others : List String) (cause : ParseError) (rest : List String)
        (hothers : tagReader v others = .error (cause, rest)) :
        alternativesReader v others = .error (cause, rest) := by
      rw [alternativesReader_eq, hothers]
      rfl
    cases (hrefused tokens refusal.1 refusal.2 hfirst).symm.trans h
    exact (foundEarly_tag hopen hfirst).lift [] (fun _ => Viable.alternatives)
      fun others cause rest _ => hrefused others cause rest
  | ok accepted =>
    obtain ⟨t, left⟩ := accepted
    obtain ⟨taken, htokens, ht, hsettled⟩ := settles_tag tokens t left hfirst
    rw [alternativesReader_eq, hfirst] at h
    simp only [Except.bind] at h
    by_cases hbar : left.head? = some "|"
    · obtain ⟨more, rfl⟩ := List.head?_eq_some_iff.1 hbar
      have hshorter : more.length < tokens.length := by
        rw [htokens, List.length_append, List.length_cons]
        omega
      rw [if_pos hbar] at h
      have hfound := foundEarly_alternatives hopen (map_eq_error_iff.1 h)
      rw [htokens, List.append_cons]
      refine hfound.lift (taken ++ ["|"]) (fun _ => Viable.cons_alternatives ht) ?_
      intro others cause rest _ hothers
      rw [← List.append_cons, alternativesReader_eq, hsettled ("|" :: others) rfl]
      exact map_eq_error_iff.2 hothers
    · rw [if_neg hbar] at h
      cases h
termination_by tokens.length

/-- The beginning of alternatives begins a set. -/
theorem Viable.set {begun : List String} (h : Viable (DerivesTags v "|") begun) :
    Viable (DerivesSet v) begun := by
  obtain ⟨later, ts, hts⟩ := h
  exact ⟨later, Ascending.ofList ts, .ofTags hts⟩

/-- Errors in a set are found early. -/
theorem foundEarly_set (hopen : v.closed = false) {tokens rest : List String}
    {cause : ParseError} (h : setReader v tokens = .error (cause, rest)) :
    FoundEarly (DerivesSet v) (setReader v) tokens cause rest := by
  cases tokens with
  | nil =>
    cases outcome_parseSet_nil.symm.trans h
    exact .atEnd (.inl rfl) (viable_nil_tag hopen).alternatives.set
  | cons token behind =>
    rw [setReader, outcome_parseSet_cons] at h
    by_cases hsign : isEmptySign token = true
    · rw [if_pos hsign] at h
      cases h
    · rw [if_neg hsign] at h
      have hfound := foundEarly_alternatives hopen (map_eq_error_iff.1 h)
      refine hfound.lift [] (fun _ => Viable.set) fun others cause rest hhead hothers => ?_
      obtain ⟨later, rfl⟩ := List.head?_eq_some_iff.1 hhead
      rw [List.nil_append, setReader, outcome_parseSet_cons, if_neg hsign]
      exact map_eq_error_iff.2 hothers

/-- Errors in parameters are found early. -/
theorem foundEarly_parameters (hopen : v.closed = false) {tokens rest : List String}
    {cause : ParseError} (h : parametersReader v tokens = .error (cause, rest)) :
    FoundEarly (Closed (DerivesSets v)) (parametersReader v) tokens cause rest :=
  foundEarly_items readsItems_parameters joinsItems_sets settles_set
    (fun _ _ _ _ hothers => foundEarly_set hopen hothers) h

/-- An opening bracket in front of the beginning of parameters begins a
signature. -/
theorem Viable.signature {begun : List String} (h : Viable (Closed (DerivesSets v)) begun) :
    Viable (DerivesSignature v) (["("] ++ begun) := by
  obtain ⟨later, ps, inner, hinner, hps⟩ := h
  refine ⟨later, ⟨ps⟩, ?_⟩
  rw [List.append_assoc, hinner]
  exact .ofSets hps

/-- Errors in a signature are found early. -/
theorem foundEarly_signature (hopen : v.closed = false) {tokens rest : List String}
    {cause : ParseError} (h : signatureReader v tokens = .error (cause, rest)) :
    FoundEarly (DerivesSignature v) (signatureReader v) tokens cause rest := by
  cases tokens with
  | nil =>
    cases outcome_parseSignature_nil.symm.trans h
    exact .atEnd (.inl rfl) ⟨["(", ")"], ⟨[]⟩, .empty⟩
  | cons token inner =>
    by_cases hbracket : token = "("
    · subst hbracket
      cases inner with
      | nil =>
        rw [signatureReader, outcome_parseSignature_cons, if_pos rfl] at h
        cases h
        exact .atEnd (.inl rfl) ⟨[")"], ⟨[]⟩, .empty⟩
      | cons next behind =>
        by_cases hclose : next = ")"
        · subst hclose
          rw [signatureReader, outcome_parseSignature_cons, if_pos rfl] at h
          cases h
        · rw [signatureReader_open hclose] at h
          have hfound := foundEarly_parameters hopen (map_eq_error_iff.1 h)
          refine hfound.lift ["("] (fun _ => Viable.signature) ?_
          intro others cause rest hhead hothers
          obtain ⟨later, rfl⟩ := List.head?_eq_some_iff.1 hhead
          exact (signatureReader_open hclose later).trans (map_eq_error_iff.2 hothers)
    · have hrefused (later : List String) :
          signatureReader v (token :: later) = .error (.unexpected token, later) := by
        rw [signatureReader, outcome_parseSignature_cons, if_neg hbracket]
      cases (hrefused inner).symm.trans h
      rw [← List.nil_append (token :: rest)]
      exact .atToken (.inl rfl) ⟨["(", ")"], ⟨[]⟩, .empty⟩ hrefused

end Errors

section Reports

variable {α : Type}

/-- Some tokens can be extended by further ones so that reading them gives a
value. -/
def Extendable (read : (tokens : List String) → Parsed α tokens) (begun : List String) : Prop :=
  ∃ later value, (read (begun ++ later)).result = .ok value

/-- An error is reported as early as possible. Either the tokens ended too early,
so that all were taken and further ones could have completed them; or the tokens
that were taken end with one that rules out every completion, while those in
front of it did not. -/
def ReportsEarly (read : (tokens : List String) → Parsed α tokens) : Prop :=
  ∀ tokens cause, (read tokens).result = .error cause →
    (Extendable read tokens ∧ (read tokens).source = [] ∧
      (cause = .emptyInput ∨ cause = .bracketMismatch)) ∨
    ∃ begun token rest, tokens = begun ++ token :: rest ∧ (read tokens).source = rest ∧
      Extendable read begun ∧ ¬ Extendable read (begun ++ [token]) ∧
      (cause = .unexpected token ∨ cause = .bracketMismatch)

/-- An error leaves the tokens behind it in the source. -/
theorem Parsed.outcome_eq_error_iff {tokens rest : List String} {p : Parsed α tokens}
    {cause : ParseError} :
    p.outcome = .error (cause, rest) ↔ p.result = .error cause ∧ p.source = rest := by
  cases p <;> simp [outcome, result, source]

/-- A value is read together with tokens that are left behind it. -/
theorem Parsed.result_eq_ok_iff {tokens : List String} {p : Parsed α tokens} {value : α} :
    p.result = .ok value ↔ ∃ rest, p.outcome = .ok (value, rest) := by
  cases p <;> simp [outcome, result]

/-- Errors that are found early are reported early, if whole phrases are read. -/
theorem reportsEarly_of_foundEarly {derives : List String → α → Prop}
    {read : (tokens : List String) → Parsed α tokens}
    (hfound : ∀ {tokens rest cause}, (read tokens).outcome = .error (cause, rest) →
      FoundEarly derives (fun tokens => (read tokens).outcome) tokens cause rest)
    (hread : ∀ {taken value}, derives taken value → (read taken).outcome = .ok (value, [])) :
    ReportsEarly read := by
  have hextend {begun : List String} (h : Viable derives begun) : Extendable read begun := by
    obtain ⟨later, value, hvalue⟩ := h
    exact ⟨later, value, Parsed.result_eq_ok_iff.2 ⟨[], hread hvalue⟩⟩
  intro tokens cause h
  generalize hsource : (read tokens).source = left
  cases hfound (Parsed.outcome_eq_error_iff.2 ⟨h, hsource⟩) with
  | atEnd hcause hbegun => exact .inl ⟨hextend hbegun, rfl, hcause⟩
  | @atToken begun rest token cause hcause hbegun hlater =>
    refine .inr ⟨begun, token, left, rfl, rfl, hextend hbegun, ?_, hcause⟩
    rintro ⟨later, value, hvalue⟩
    obtain ⟨rest, haccepted⟩ := Parsed.result_eq_ok_iff.1 hvalue
    have hrefused := hlater later
    rw [List.append_cons] at hrefused
    cases hrefused.symm.trans haccepted

/-- With an open vocabulary, tags, sets and signatures are refused at the earliest
possible token, and no token behind it is taken from the source. -/
theorem reports_early (v : Vocabulary) (hopen : v.closed = false) :
    ReportsEarly (parseTag v) ∧ ReportsEarly (parseSet v) ∧ ReportsEarly (parseSignature v) := by
  refine ⟨reportsEarly_of_foundEarly (foundEarly_tag hopen) fun {taken t} ht => ?_,
    reportsEarly_of_foundEarly (foundEarly_set hopen) fun {taken s} hs => ?_,
    reportsEarly_of_foundEarly (foundEarly_signature hopen) fun {taken s} hs => ?_⟩
  · have hread := outcome_parseTag_append ht (endsBefore_nil taken)
    rwa [List.append_nil] at hread
  · have hread := outcome_parseSet_append hs (endsBefore_nil taken) (by simp)
    rwa [List.append_nil] at hread
  · have hread := outcome_parseSignature_append hs []
    rwa [List.append_nil] at hread

/-- A bar among the arguments of a tag is refused, with the token behind it still
in the source: the arguments could have gone on with something else. -/
theorem reports_early_bar :
    ({} : Vocabulary).closed = false ∧
      (parseTag {} ["F", "(", "A", "|", "B"]).result = .error .bracketMismatch ∧
      (parseTag {} ["F", "(", "A", "|", "B"]).source = ["B"] ∧
      Extendable (parseTag {}) ["F", "(", "A"] ∧
      ¬ Extendable (parseTag {}) ["F", "(", "A", "|"] := by
  have hargument : tagReader {} ["A", "|", "B"] = .ok (.atom ⟨"A", by decide⟩, ["|", "B"]) :=
    tagReader_name (nameToken_of_open rfl ⟨"A", by decide⟩ (by decide)) _
  have harguments : argumentsReader {} ["A", "|", "B"] = .error (.bracketMismatch, ["B"]) :=
    readsItems_arguments.other hargument (by decide) (by decide)
  have hread : tagReader {} ["F", "(", "A", "|", "B"] = .error (.bracketMismatch, ["B"]) := by
    rw [tagReader_name (nameToken_of_open rfl ⟨"F", by decide⟩ (by decide)), if_pos (by rfl)]
    exact map_eq_error_iff.2 harguments
  obtain ⟨hresult, hsource⟩ := Parsed.outcome_eq_error_iff.1 hread
  rcases (reports_early {} rfl).1 _ _ hresult with
    ⟨-, hended, -⟩ | ⟨begun, token, rest, htokens, hleft, hbegun, hruledOut, -⟩
  · rw [hsource] at hended
    cases hended
  · obtain rfl := hsource.symm.trans hleft
    have hsplit : ["F", "(", "A"] ++ ["|", "B"] = begun ++ [token, "B"] := htokens
    obtain ⟨rfl, hpair⟩ := List.append_inj' hsplit rfl
    cases hpair
    exact ⟨rfl, hresult, hsource, hbegun, hruledOut⟩

end Reports

end DispatchCoverage.Surface

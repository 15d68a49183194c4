import DispatchCoverage.Proofs.Results
import DispatchCoverage.Surface.Grammar
import DispatchCoverage.Surface.Parse

/-!
# Reading and derivation

Reading follows the grammar in both directions. What a reader accepts, it has
derived from the tokens that it took; and derived tokens are read in full when
no token behind them could belong to them. Together a whole text is read
exactly if its tokens derive a value, and only as that value.
-/

namespace DispatchCoverage

namespace Surface

variable {v : Vocabulary}

/-- In an open vocabulary, each text that is no sign of its own stands for a
name. -/
theorem nameToken_of_open (hopen : v.closed = false) (n : Name)
    (h : isReserved n.text = false ∧ isEmptySign n.text = false) : NameToken v n.text n :=
  ⟨h.1, h.2, rfl, fun hclosed => absurd (hopen.symm.trans hclosed) Bool.false_ne_true⟩

section Items

/-- A list of items is derived from the tokens of the items with a mark between
them. -/
structure JoinsItems {α : Type} (mark : String) (derives : List String → α → Prop)
    (derivesAll : List String → List α → Prop) : Prop where
  /-- A single item is enough. -/
  one : ∀ {taken item}, derives taken item → derivesAll taken [item]
  /-- An item can be put in front of others. -/
  more : ∀ {taken item later items}, derives taken item → derivesAll later items →
    derivesAll (taken ++ mark :: later) (item :: items)

/-- Tags are joined by any mark. -/
theorem joinsItems_tags (mark : String) :
    JoinsItems mark (DerivesTag v) (DerivesTags v mark) :=
  ⟨.one, .more⟩

/-- Sets are joined by commas. -/
theorem joinsItems_sets : JoinsItems "," (DerivesSet v) (DerivesSets v) := ⟨.one, .more⟩

end Items

section Outcome

variable {α : Type} {tokens : List String}

/-- The value that was read, or the error, with the tokens left behind it. -/
def Parsed.outcome : Parsed α tokens → Except (ParseError × List String) (α × List String)
  | .accepted value rest _ _ => .ok (value, rest)
  | .rejected cause rest => .error (cause, rest)

/-- Reading leaves fewer tokens than it was given. -/
theorem Parsed.length_lt_of_outcome {p : Parsed α tokens} {value : α} {rest : List String}
    (h : p.outcome = .ok (value, rest)) : rest.length < tokens.length := by
  cases p with
  | accepted value' rest' ahead shorter =>
    cases h
    exact shorter
  | rejected cause rest' => cases h

/-- A whole text is read as a value when the value is read and nothing is left
behind it. -/
theorem Parsed.complete_eq_ok_iff {p : Parsed α tokens} {value : α} :
    p.complete = .ok value ↔ p.outcome = .ok (value, []) := by
  cases p with
  | accepted value' rest ahead shorter => cases rest <;> simp [complete, outcome]
  | rejected cause rest => simp [complete, outcome]

/-- A whole text is rejected for a token behind the value that is read. -/
theorem Parsed.complete_of_outcome_cons {p : Parsed α tokens} {value : α} {token : String}
    {rest : List String} (h : p.outcome = .ok (value, token :: rest)) :
    p.complete = .error (.unexpected token) := by
  cases p with
  | accepted value' rest' ahead shorter =>
    cases h
    rfl
  | rejected cause rest' => cases h

/-- A text that is not read in full is rejected for the error of the reading or
for the token behind it. -/
theorem Parsed.complete_eq_error {p : Parsed α tokens} {cause : ParseError}
    (h : p.complete = .error cause) :
    (∃ rest, p.outcome = .error (cause, rest)) ∨ ∃ token, cause = .unexpected token := by
  cases p with
  | accepted value rest ahead shorter =>
    cases rest with
    | nil => cases h
    | cons token rest =>
      cases h
      exact .inr ⟨token, rfl⟩
  | rejected cause' rest =>
    cases h
    exact .inl ⟨rest, rfl⟩

end Outcome

section Readers

/-- Without tokens there is no tag. -/
theorem outcome_parseTag_nil : (parseTag v []).outcome = .error (.emptyInput, []) := by
  rw [parseTag.eq_def]
  rfl

/-- A tag begins with the token of a name, and goes on with arguments exactly if
an opening bracket follows. -/
theorem outcome_parseTag_cons (token : String) (rest : List String) :
    (parseTag v (token :: rest)).outcome =
      if isReserved token || isEmptySign token then .error (.unexpected token, rest)
      else
        match v.name? token with
        | none => .error (.undefined token, rest)
        | some n =>
          if rest.head? = some "(" then
            (parseArguments v rest.tail).outcome.map fun (ts, rest) => (Tag.mk n ts, rest)
          else .ok (Tag.atom n, rest) := by
  rw [parseTag.eq_def]
  dsimp only
  split
  · rfl
  · cases v.name? token with
    | none => rfl
    | some n =>
      cases rest with
      | nil => rfl
      | cons next inner =>
        by_cases hnext : next = "("
        · subst hnext
          simp only [List.head?_cons, List.tail_cons, if_true]
          cases parseArguments v inner <;> rfl
        · simp [hnext, Parsed.outcome]

/-- Arguments are tags with commas between them and a closing bracket behind
them. -/
theorem outcome_parseArguments (tokens : List String) :
    (parseArguments v tokens).outcome =
      (parseTag v tokens).outcome.bind fun (t, rest) =>
        match rest with
        | [] => .error (.bracketMismatch, [])
        | next :: more =>
          if next = "," then (parseArguments v more).outcome.map fun (ts, rest) => (t :: ts, rest)
          else if next = ")" then .ok ([t], more)
          else .error (.bracketMismatch, more) := by
  rw [parseArguments.eq_def]
  cases parseTag v tokens with
  | rejected cause rest => rfl
  | accepted t rest ahead shorter =>
    cases rest with
    | nil => rfl
    | cons next more =>
      by_cases hcomma : next = ","
      · subst hcomma
        simp only [Parsed.outcome, Except.bind, if_true]
        cases parseArguments v more <;> rfl
      · by_cases hclose : next = ")" <;>
          simp [hcomma, hclose, Parsed.outcome, Except.bind]

/-- Alternatives are tags with bars between them. -/
theorem outcome_parseAlternatives (tokens : List String) :
    (parseAlternatives v tokens).outcome =
      (parseTag v tokens).outcome.bind fun (t, rest) =>
        if rest.head? = some "|" then
          (parseAlternatives v rest.tail).outcome.map fun (ts, rest) => (t :: ts, rest)
        else .ok ([t], rest) := by
  rw [parseAlternatives.eq_def]
  cases parseTag v tokens with
  | rejected cause rest => rfl
  | accepted t rest ahead shorter =>
    cases rest with
    | nil => rfl
    | cons next more =>
      by_cases hbar : next = "|"
      · subst hbar
        simp only [Parsed.outcome, Except.bind, List.head?_cons, List.tail_cons, if_true]
        cases parseAlternatives v more <;> rfl
      · simp [hbar, Parsed.outcome, Except.bind]

/-- Without tokens there is no set. -/
theorem outcome_parseSet_nil : (parseSet v []).outcome = .error (.emptyInput, []) := rfl

/-- A set is a sign of the empty set or alternatives. -/
theorem outcome_parseSet_cons (token : String) (rest : List String) :
    (parseSet v (token :: rest)).outcome =
      if isEmptySign token then .ok (∅, rest)
      else (parseAlternatives v (token :: rest)).outcome.map fun (ts, rest) =>
        (Ascending.ofList ts, rest) := by
  unfold parseSet
  dsimp only
  split
  · rfl
  · cases parseAlternatives v (token :: rest) <;> rfl

/-- Parameters are sets with commas between them and a closing bracket behind
them. -/
theorem outcome_parseParameters (tokens : List String) :
    (parseParameters v tokens).outcome =
      (parseSet v tokens).outcome.bind fun (p, rest) =>
        match rest with
        | [] => .error (.bracketMismatch, [])
        | next :: more =>
          if next = "," then
            (parseParameters v more).outcome.map fun (ps, rest) => (p :: ps, rest)
          else if next = ")" then .ok ([p], more)
          else .error (.bracketMismatch, more) := by
  rw [parseParameters.eq_def]
  cases parseSet v tokens with
  | rejected cause rest => rfl
  | accepted p rest ahead shorter =>
    cases rest with
    | nil => rfl
    | cons next more =>
      by_cases hcomma : next = ","
      · subst hcomma
        simp only [Parsed.outcome, Except.bind, if_true]
        cases parseParameters v more <;> rfl
      · by_cases hclose : next = ")" <;>
          simp [hcomma, hclose, Parsed.outcome, Except.bind]

/-- Without tokens there is no signature. -/
theorem outcome_parseSignature_nil :
    (parseSignature v []).outcome = .error (.emptyInput, []) := rfl

/-- A signature begins with an opening bracket, which a closing bracket or the
parameters follow. -/
theorem outcome_parseSignature_cons (token : String) (inner : List String) :
    (parseSignature v (token :: inner)).outcome =
      if token = "(" then
        match inner with
        | [] => .error (.emptyInput, [])
        | next :: rest =>
          if next = ")" then .ok (⟨[]⟩, rest)
          else (parseParameters v (next :: rest)).outcome.map fun (ps, rest) => (⟨ps⟩, rest)
      else .error (.unexpected token, inner) := by
  unfold parseSignature
  dsimp only
  by_cases hopen : token = "("
  · rw [if_neg (not_not_intro hopen), if_pos hopen]
    cases inner with
    | nil => rfl
    | cons next rest =>
      by_cases hclose : next = ")"
      · simp only [if_pos hclose]
        rfl
      · simp only [if_neg hclose]
        cases parseParameters v (next :: rest) <;> rfl
  · rw [if_pos hopen, if_neg hopen]
    rfl

end Readers

section Soundness

variable {α β : Type}

/-- What a reading gives is justified: an accepted value is derived by the
tokens in front of the rest, and an error is about the tokens. -/
def Justified (derives : List String → α → Prop) (tokens : List String) :
    Except (ParseError × List String) (α × List String) → Prop
  | .ok (value, rest) => ∃ taken, tokens = taken ++ rest ∧ derives taken value
  | .error (cause, _) => cause ≠ .strayImplementation

/-- Tokens that derive a list of items, with the closing bracket behind them. -/
def Closed (derives : List String → α → Prop) (taken : List String) (value : α) : Prop :=
  ∃ inner, taken = inner ++ [")"] ∧ derives inner value

/-- A justified reading stays justified when another reader goes on with its
rest. -/
theorem Justified.bind {first : List String → α → Prop} {both : List String → β → Prop}
    {tokens : List String} {reading : Except (ParseError × List String) (α × List String)}
    {further : α × List String → Except (ParseError × List String) (β × List String)}
    (h : Justified first tokens reading)
    (hfurther : ∀ taken value rest, reading = .ok (value, rest) → tokens = taken ++ rest →
      first taken value → Justified both tokens (further (value, rest))) :
    Justified both tokens (reading.bind further) := by
  cases reading with
  | error cause => exact h
  | ok result =>
    obtain ⟨value, rest⟩ := result
    obtain ⟨taken, htokens, hderives⟩ := h
    exact hfurther taken value rest rfl htokens hderives

/-- A justified reading of the tokens behind some others is justified in front
of them as well, if those others belong to what is built from the value. -/
theorem Justified.map {inner : List String → α → Prop} {outer : List String → β → Prop}
    {tokens : List String} {reading : Except (ParseError × List String) (α × List String)}
    (h : Justified inner tokens reading) (earlier : List String) (f : α → β)
    (hbuild : ∀ taken value, inner taken value → outer (earlier ++ taken) (f value)) :
    Justified outer (earlier ++ tokens)
      (reading.map fun (value, rest) => (f value, rest)) := by
  cases reading with
  | error cause => exact h
  | ok result =>
    obtain ⟨value, rest⟩ := result
    obtain ⟨taken, htokens, hderives⟩ := h
    exact ⟨earlier ++ taken, by rw [htokens, List.append_assoc], hbuild taken value hderives⟩

mutual

/-- Reading a tag is justified. -/
theorem justified_parseTag (tokens : List String) :
    Justified (DerivesTag v) tokens (parseTag v tokens).outcome := by
  cases tokens with
  | nil =>
    rw [outcome_parseTag_nil]
    exact ParseError.noConfusion
  | cons token rest =>
    rw [outcome_parseTag_cons]
    split
    · exact ParseError.noConfusion
    · rename_i hsign
      cases hname : v.name? token with
      | none => exact ParseError.noConfusion
      | some n =>
        have htoken : NameToken v token n := by
          simp only [Bool.or_eq_true, not_or, Bool.not_eq_true] at hsign
          exact nameToken_iff.2 ⟨hsign.1, hsign.2, hname⟩
        dsimp only
        split
        · rename_i hopen
          obtain ⟨inner, rfl⟩ := List.head?_eq_some_iff.1 hopen
          refine (justified_parseArguments inner).map [token, "("] (Tag.mk n) ?_
          rintro taken ts ⟨arguments, rfl, hts⟩
          exact .applied htoken hts
        · exact ⟨[token], rfl, .atom htoken⟩
termination_by (tokens.length, 0)

/-- Reading arguments is justified. -/
theorem justified_parseArguments (tokens : List String) :
    Justified (Closed (DerivesTags v ",")) tokens (parseArguments v tokens).outcome := by
  rw [outcome_parseArguments]
  refine (justified_parseTag tokens).bind fun taken t rest hread htokens ht => ?_
  have hshorter := Parsed.length_lt_of_outcome hread
  cases rest with
  | nil => exact ParseError.noConfusion
  | cons next more =>
    have hmore : more.length < tokens.length := by
      simp only [List.length_cons] at hshorter
      omega
    dsimp only
    split
    · rename_i hcomma
      rw [htokens, hcomma, List.append_cons]
      refine (justified_parseArguments more).map (taken ++ [","]) (t :: ·) ?_
      rintro later ts ⟨inner, rfl, hts⟩
      exact ⟨taken ++ "," :: inner, by simp, .more ht hts⟩
    · split
      · rename_i hclose
        exact ⟨taken ++ [")"], by rw [htokens, hclose]; simp, taken, rfl, .one ht⟩
      · exact ParseError.noConfusion
termination_by (tokens.length, 1)

end

/-- Reading alternatives is justified. -/
theorem justified_parseAlternatives (tokens : List String) :
    Justified (DerivesTags v "|") tokens (parseAlternatives v tokens).outcome := by
  rw [outcome_parseAlternatives]
  refine (justified_parseTag tokens).bind fun taken t rest hread htokens ht => ?_
  have hshorter := Parsed.length_lt_of_outcome hread
  dsimp only
  split
  · rename_i hbar
    obtain ⟨more, rfl⟩ := List.head?_eq_some_iff.1 hbar
    have hmore : more.length < tokens.length := by
      simp only [List.length_cons] at hshorter
      omega
    rw [htokens, List.append_cons]
    refine (justified_parseAlternatives more).map (taken ++ ["|"]) (t :: ·) ?_
    intro later ts hts
    rw [← List.append_cons]
    exact .more ht hts
  · exact ⟨taken, htokens, .one ht⟩
termination_by tokens.length

/-- Reading a set is justified. -/
theorem justified_parseSet (tokens : List String) :
    Justified (DerivesSet v) tokens (parseSet v tokens).outcome := by
  cases tokens with
  | nil =>
    rw [outcome_parseSet_nil]
    exact ParseError.noConfusion
  | cons token rest =>
    rw [outcome_parseSet_cons]
    split
    · rename_i hsign
      exact ⟨[token], rfl, .empty hsign⟩
    · exact (justified_parseAlternatives (token :: rest)).map [] Ascending.ofList
        fun taken ts hts => .ofTags hts

/-- Reading parameters is justified. -/
theorem justified_parseParameters (tokens : List String) :
    Justified (Closed (DerivesSets v)) tokens (parseParameters v tokens).outcome := by
  rw [outcome_parseParameters]
  refine (justified_parseSet tokens).bind fun taken p rest hread htokens hp => ?_
  have hshorter := Parsed.length_lt_of_outcome hread
  cases rest with
  | nil => exact ParseError.noConfusion
  | cons next more =>
    have hmore : more.length < tokens.length := by
      simp only [List.length_cons] at hshorter
      omega
    dsimp only
    split
    · rename_i hcomma
      rw [htokens, hcomma, List.append_cons]
      refine (justified_parseParameters more).map (taken ++ [","]) (p :: ·) ?_
      rintro later ps ⟨inner, rfl, hps⟩
      exact ⟨taken ++ "," :: inner, by simp, .more hp hps⟩
    · split
      · rename_i hclose
        exact ⟨taken ++ [")"], by rw [htokens, hclose]; simp, taken, rfl, .one hp⟩
      · exact ParseError.noConfusion
termination_by tokens.length

/-- Reading a signature is justified. -/
theorem justified_parseSignature (tokens : List String) :
    Justified (DerivesSignature v) tokens (parseSignature v tokens).outcome := by
  cases tokens with
  | nil =>
    rw [outcome_parseSignature_nil]
    exact ParseError.noConfusion
  | cons token inner =>
    rw [outcome_parseSignature_cons]
    split
    · rename_i hopen
      subst hopen
      cases inner with
      | nil => exact ParseError.noConfusion
      | cons next rest =>
        dsimp only
        split
        · rename_i hclose
          exact ⟨["(", ")"], by rw [hclose]; rfl, .empty⟩
        · refine (justified_parseParameters (next :: rest)).map ["("] Signature.mk ?_
          rintro taken ps ⟨parameters, rfl, hps⟩
          exact .ofSets hps
    · exact ParseError.noConfusion

end Soundness

section Completeness

/-- Tags end in front of what stands behind them: an opening bracket would belong
to a name, but not to a tag that has its arguments. -/
def EndsBefore (taken rest : List String) : Prop :=
  rest.head? = some "(" → taken.getLast? = some ")"

/-- Tags end in front of any token other than an opening bracket. -/
theorem endsBefore_cons {taken : List String} {next : String} (h : next ≠ "(")
    (rest : List String) : EndsBefore taken (next :: rest) :=
  fun hnext => absurd (Option.some.inj hnext) h

/-- Tags end where nothing stands behind them. -/
theorem endsBefore_nil (taken : List String) : EndsBefore taken [] := fun h => nomatch h

/-- A name ends only in front of what is no opening bracket. -/
theorem NameToken.head?_ne {token : String} {n : Name} {rest : List String}
    (h : NameToken v token n) (hrest : EndsBefore [token] rest) : rest.head? ≠ some "(" := by
  intro hopen
  cases hrest hopen
  exact absurd h.notReserved (by decide)

/-- The tokens of a tag begin with the token of a name. -/
theorem DerivesTag.exists_name {taken : List String} {t : Tag} (h : DerivesTag v taken t) :
    ∃ token rest, taken = token :: rest ∧ ∃ n, NameToken v token n := by
  cases h with
  | atom htoken => exact ⟨_, [], rfl, _, htoken⟩
  | applied htoken hts => exact ⟨_, _, rfl, _, htoken⟩

/-- The tokens of several tags begin with the token of a name. -/
theorem DerivesTags.exists_name {mark : String} {taken : List String} {ts : List Tag}
    (h : DerivesTags v mark taken ts) :
    ∃ token rest, taken = token :: rest ∧ ∃ n, NameToken v token n := by
  cases h with
  | one ht => exact ht.exists_name
  | more ht hts =>
    obtain ⟨token, rest, rfl, hname⟩ := ht.exists_name
    exact ⟨token, _, rfl, hname⟩

/-- Several tags end where the last of them ends. -/
theorem endsBefore_append_iff {mark : String} {earlier taken rest : List String} {ts : List Tag}
    (h : DerivesTags v mark taken ts) :
    EndsBefore (earlier ++ mark :: taken) rest ↔ EndsBefore taken rest := by
  obtain ⟨token, later, rfl, hname⟩ := h.exists_name
  simp [EndsBefore, List.getLast?_append, List.getLast?_cons_cons]

mutual

/-- The tokens of a tag are read as that tag, unless an opening bracket behind
them belongs to it. -/
theorem outcome_parseTag_append {taken rest : List String} {t : Tag} (h : DerivesTag v taken t)
    (hrest : EndsBefore taken rest) : (parseTag v (taken ++ rest)).outcome = .ok (t, rest) := by
  cases h with
  | atom htoken =>
    obtain ⟨hreserved, hsign, hname⟩ := nameToken_iff.1 htoken
    rw [List.singleton_append, outcome_parseTag_cons, hreserved, hsign, hname]
    exact if_neg (htoken.head?_ne hrest)
  | @applied token n inner ts htoken hts =>
    obtain ⟨hreserved, hsign, hname⟩ := nameToken_iff.1 htoken
    have harguments := outcome_parseArguments_append hts rest
    have htaken : token :: "(" :: (inner ++ [")"]) ++ rest =
        token :: "(" :: (inner ++ ")" :: rest) := by simp
    rw [htaken, outcome_parseTag_cons, hreserved, hsign, hname]
    simp only [List.head?_cons, List.tail_cons, if_true, harguments]
    rfl
termination_by (taken.length, 0)

/-- The tokens of arguments are read as those arguments up to the closing
bracket behind them. -/
theorem outcome_parseArguments_append {inner : List String} {ts : List Tag}
    (h : DerivesTags v "," inner ts) (rest : List String) :
    (parseArguments v (inner ++ ")" :: rest)).outcome = .ok (ts, rest) := by
  rw [outcome_parseArguments]
  cases h with
  | one ht =>
    rw [outcome_parseTag_append ht (endsBefore_cons (by decide) _)]
    rfl
  | @more _ tokens later t ts ht hts =>
    have hlater := outcome_parseArguments_append hts rest
    rw [List.append_assoc, List.cons_append,
      outcome_parseTag_append ht (endsBefore_cons (by decide) _)]
    simp only [Except.bind, if_true, hlater]
    rfl
termination_by (inner.length, 1)

end

/-- The tokens of alternatives are read as those alternatives, unless an opening
bracket behind them belongs to the last of them, or a bar follows them. -/
theorem outcome_parseAlternatives_append {taken rest : List String} {ts : List Tag}
    (h : DerivesTags v "|" taken ts) (hrest : EndsBefore taken rest)
    (hbar : rest.head? ≠ some "|") :
    (parseAlternatives v (taken ++ rest)).outcome = .ok (ts, rest) := by
  rw [outcome_parseAlternatives]
  cases h with
  | one ht =>
    rw [outcome_parseTag_append ht hrest]
    exact if_neg hbar
  | @more _ tokens later t ts ht hts =>
    have hlater := outcome_parseAlternatives_append hts ((endsBefore_append_iff hts).1 hrest) hbar
    rw [List.append_assoc, List.cons_append,
      outcome_parseTag_append ht (endsBefore_cons (by decide) _)]
    simp only [Except.bind, List.head?_cons, List.tail_cons, if_true, hlater]
    rfl
termination_by taken.length

/-- The tokens of a set are read as that set, unless an opening bracket behind
them belongs to the last of its tags, or a bar follows them. -/
theorem outcome_parseSet_append {taken rest : List String} {s : TypeSet}
    (h : DerivesSet v taken s) (hrest : EndsBefore taken rest) (hbar : rest.head? ≠ some "|") :
    (parseSet v (taken ++ rest)).outcome = .ok (s, rest) := by
  cases h with
  | empty hsign =>
    rw [List.singleton_append, outcome_parseSet_cons]
    exact if_pos hsign
  | ofTags hts =>
    have halternatives := outcome_parseAlternatives_append hts hrest hbar
    obtain ⟨token, later, rfl, n, hname⟩ := hts.exists_name
    rw [List.cons_append] at halternatives ⊢
    rw [outcome_parseSet_cons, hname.notEmptySign, halternatives]
    rfl

/-- The tokens of parameters are read as those parameters up to the closing
bracket behind them. -/
theorem outcome_parseParameters_append {inner : List String} {ps : List TypeSet}
    (h : DerivesSets v inner ps) (rest : List String) :
    (parseParameters v (inner ++ ")" :: rest)).outcome = .ok (ps, rest) := by
  induction h with
  | one hp =>
    rw [outcome_parseParameters,
      outcome_parseSet_append hp (endsBefore_cons (by decide) _) (by simp)]
    rfl
  | more hp hps ih =>
    rw [outcome_parseParameters, List.append_assoc, List.cons_append,
      outcome_parseSet_append hp (endsBefore_cons (by decide) _) (by simp)]
    simp only [Except.bind, if_true, ih]
    rfl

/-- The tokens of a set do not begin with a closing bracket. -/
theorem DerivesSet.exists_ne_close {taken : List String} {s : TypeSet} (h : DerivesSet v taken s) :
    ∃ token rest, taken = token :: rest ∧ token ≠ ")" := by
  cases h with
  | @empty token hsign =>
    refine ⟨token, [], rfl, ?_⟩
    rintro rfl
    exact absurd hsign (by decide)
  | ofTags hts =>
    obtain ⟨token, rest, rfl, n, hname⟩ := hts.exists_name
    refine ⟨token, rest, rfl, ?_⟩
    rintro rfl
    exact absurd hname.notReserved (by decide)

/-- The tokens of a signature are read as that signature, whatever follows
them. -/
theorem outcome_parseSignature_append {taken : List String} {s : Signature}
    (h : DerivesSignature v taken s) (rest : List String) :
    (parseSignature v (taken ++ rest)).outcome = .ok (s, rest) := by
  cases h with
  | empty => rfl
  | @ofSets tokens ps hps =>
    have hparameters := outcome_parseParameters_append hps rest
    have htaken : "(" :: (tokens ++ [")"]) ++ rest = "(" :: (tokens ++ ")" :: rest) := by simp
    obtain ⟨token, later, htokens, hclose⟩ : ∃ token later, tokens = token :: later ∧
        token ≠ ")" := by
      cases hps with
      | one hp => exact hp.exists_ne_close
      | more hp hps =>
        obtain ⟨token, later, rfl, hclose⟩ := hp.exists_ne_close
        exact ⟨token, _, rfl, hclose⟩
    rw [htaken, outcome_parseSignature_cons, if_pos rfl]
    subst htokens
    rw [List.cons_append] at hparameters ⊢
    dsimp only
    rw [if_neg hclose, hparameters]
    rfl

end Completeness

section Texts

variable {α : Type} {derives : List String → α → Prop}

/-- A justified reader that reads derived tokens in full accepts a whole text
exactly as the values that its tokens derive. -/
theorem complete_eq_ok_iff_derives {tokens : List String} {p : Parsed α tokens}
    (hsound : Justified derives tokens p.outcome)
    (hcomplete : ∀ value, derives tokens value → p.outcome = .ok (value, [])) (value : α) :
    p.complete = .ok value ↔ derives tokens value := by
  rw [Parsed.complete_eq_ok_iff]
  constructor
  · intro hread
    rw [hread] at hsound
    obtain ⟨taken, htokens, hderives⟩ := hsound
    rw [List.append_nil] at htokens
    exact htokens ▸ hderives
  · exact hcomplete value

/-- A whole text whose reading is justified is read, or rejected for an error
about its tokens. -/
theorem complete_cases {tokens : List String} {p : Parsed α tokens}
    (hsound : Justified derives tokens p.outcome) :
    (∃ value, p.complete = .ok value) ∨
      ∃ cause, p.complete = .error cause ∧ cause ≠ .strayImplementation := by
  cases hcomplete : p.complete with
  | ok value => exact .inl ⟨value, rfl⟩
  | error cause =>
    refine .inr ⟨cause, rfl, ?_⟩
    rcases Parsed.complete_eq_error hcomplete with ⟨rest, hread⟩ | ⟨token, rfl⟩
    · rw [hread] at hsound
      exact hsound
    · exact ParseError.noConfusion

end Texts

end Surface

namespace Vocabulary

open Surface

variable {v : Vocabulary} {text : String}

/-- Tokens are read in full as a signature exactly if they derive it. -/
theorem complete_parseSignature_eq_ok_iff {tokens : List String} {s : Signature} :
    (parseSignature v tokens).complete = .ok s ↔ DerivesSignature v tokens s := by
  refine complete_eq_ok_iff_derives (justified_parseSignature _) (fun s hs => ?_) s
  have hread := outcome_parseSignature_append hs []
  rwa [List.append_nil] at hread

/-- A text is read as a tag exactly if its tokens derive the tag. -/
theorem readTag_eq_ok_iff {t : Tag} :
    v.readTag text = .ok t ↔ DerivesTag v (tokenize text) t := by
  refine complete_eq_ok_iff_derives (justified_parseTag _) (fun t ht => ?_) t
  have hread : (parseTag v (tokenize text ++ [])).outcome = .ok (t, []) :=
    outcome_parseTag_append ht (endsBefore_nil _)
  rwa [List.append_nil] at hread

/-- A text is read as a set exactly if its tokens derive the set. -/
theorem readSet_eq_ok_iff {s : TypeSet} :
    v.readSet text = .ok s ↔ DerivesSet v (tokenize text) s := by
  refine complete_eq_ok_iff_derives (justified_parseSet _) (fun s hs => ?_) s
  have hread : (parseSet v (tokenize text ++ [])).outcome = .ok (s, []) :=
    outcome_parseSet_append hs (endsBefore_nil _) (by simp)
  rwa [List.append_nil] at hread

/-- A text is read as a signature exactly if its tokens derive the
signature. -/
theorem readSignature_eq_ok_iff {s : Signature} :
    v.readSignature text = .ok s ↔ DerivesSignature v (tokenize text) s :=
  complete_parseSignature_eq_ok_iff

/-- Reading accepts exactly the grammar: a text is read as a value if and only
if all its tokens together derive that value, and every other text is rejected
for an error about its tokens. -/
theorem read_iff_derives (v : Vocabulary) (text : String) :
    (∀ t, v.readTag text = .ok t ↔ DerivesTag v (tokenize text) t) ∧
      (∀ s, v.readSet text = .ok s ↔ DerivesSet v (tokenize text) s) ∧
      (∀ s, v.readSignature text = .ok s ↔ DerivesSignature v (tokenize text) s) ∧
      ((∃ t, DerivesTag v (tokenize text) t) ∨
        ∃ cause, v.readTag text = .error cause ∧ cause ≠ .strayImplementation) ∧
      ((∃ s, DerivesSet v (tokenize text) s) ∨
        ∃ cause, v.readSet text = .error cause ∧ cause ≠ .strayImplementation) ∧
      ((∃ s, DerivesSignature v (tokenize text) s) ∨
        ∃ cause, v.readSignature text = .error cause ∧ cause ≠ .strayImplementation) := by
  have htag := complete_cases (justified_parseTag (v := v) (tokenize text))
  have hset := complete_cases (justified_parseSet (v := v) (tokenize text))
  have hsignature := complete_cases (justified_parseSignature (v := v) (tokenize text))
  exact ⟨fun t => readTag_eq_ok_iff, fun s => readSet_eq_ok_iff,
    fun s => readSignature_eq_ok_iff,
    htag.imp_left fun h => h.imp fun t => readTag_eq_ok_iff.1,
    hset.imp_left fun h => h.imp fun s => readSet_eq_ok_iff.1,
    hsignature.imp_left fun h => h.imp fun s => readSignature_eq_ok_iff.1⟩

end Vocabulary

end DispatchCoverage

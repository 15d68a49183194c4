import Mathlib.Data.List.Forall2
import DispatchCoverage.Proofs.Derivation

/-!
# What reading takes from a source of tokens

A reader that ends at a closing bracket or at a sign of the empty set has taken
just the tokens of its phrase. One that ends at a name has to look at the next
token, to see that neither arguments nor alternatives follow, and takes it from
the source. So a phrase that stands at the beginning of a source is read in full
and nothing but that one token is lost behind it.
-/

namespace DispatchCoverage.Surface

variable {v : Vocabulary}

section Lookahead

variable {α : Type} {tokens : List String}

/-- Whether the first token behind what was read has been taken from the
source. -/
def Parsed.tookNext : Parsed α tokens → Bool
  | .accepted _ _ ahead _ => ahead
  | .rejected _ _ => false

/-- A reading gives a value and leaves some tokens in the source. -/
def Parsed.Yields (p : Parsed α tokens) (value : α) (left : List String) : Prop :=
  p.result = .ok value ∧ p.source = left

/-- A reading leaves the tokens behind what was read, or all of these but the
first. -/
theorem Parsed.yields_of_outcome {p : Parsed α tokens} {value : α} {rest : List String}
    (h : p.outcome = .ok (value, rest)) :
    p.Yields value (if p.tookNext then rest.tail else rest) := by
  cases p with
  | accepted value' rest' ahead shorter =>
    cases h
    exact ⟨rfl, rfl⟩
  | rejected cause rest' => cases h

/-- One or more tags are derived. -/
theorem DerivesTags.ne_nil {mark : String} {taken : List String} {ts : List Tag}
    (h : DerivesTags v mark taken ts) : ts ≠ [] := by
  cases h <;> exact List.cons_ne_nil _ _

/-- Arguments end at their closing bracket. -/
theorem tookNext_parseArguments (tokens : List String) :
    (parseArguments v tokens).tookNext = false := by
  rw [parseArguments.eq_def]
  cases parseTag v tokens with
  | rejected cause rest => rfl
  | accepted t rest ahead shorter =>
    cases rest with
    | nil => rfl
    | cons next more =>
      by_cases hcomma : next = ","
      · have hmore : more.length < tokens.length := by
          simp only [List.length_cons] at shorter
          omega
        have hlater := tookNext_parseArguments more
        simp only [if_pos hcomma]
        cases hread : parseArguments v more with
        | rejected cause rest => rfl
        | accepted ts rest ahead' shorter' =>
          rw [hread] at hlater
          exact hlater
      · by_cases hclose : next = ")" <;> simp [hcomma, hclose, Parsed.tookNext]
termination_by tokens.length

/-- A tag with arguments ends at their closing bracket, and any other one at the
next token. -/
theorem tookNext_parseTag (tokens : List String) :
    (parseTag v tokens).tookNext = (parseTag v tokens).result.toOption.any Tag.isAtom := by
  rw [parseTag.eq_def]
  cases tokens with
  | nil => rfl
  | cons token rest =>
    by_cases hsign : (isReserved token || isEmptySign token) = true
    · simp only [if_pos hsign]
      rfl
    · simp only [if_neg hsign]
      cases v.name? token with
      | none => rfl
      | some n =>
        cases rest with
        | nil => rfl
        | cons next inner =>
          by_cases hopen : next = "("
          · have harguments := tookNext_parseArguments (v := v) inner
            have hderived := justified_parseArguments (v := v) inner
            simp only [if_pos hopen]
            cases hread : parseArguments v inner with
            | rejected cause rest => rfl
            | accepted ts rest ahead shorter =>
              rw [hread] at harguments hderived
              obtain ⟨taken, -, arguments, -, hts⟩ := hderived
              obtain ⟨u, us, rfl⟩ := List.exists_cons_of_ne_nil hts.ne_nil
              exact harguments
          · simp only [if_neg hopen]
            rfl

/-- Alternatives end at the next token, which could be a bar. -/
theorem tookNext_parseAlternatives (tokens : List String) :
    (parseAlternatives v tokens).tookNext = (parseAlternatives v tokens).result.isOk := by
  rw [parseAlternatives.eq_def]
  cases parseTag v tokens with
  | rejected cause rest => rfl
  | accepted t rest ahead shorter =>
    cases rest with
    | nil => rfl
    | cons next more =>
      by_cases hbar : next = "|"
      · have hmore : more.length < tokens.length := by
          simp only [List.length_cons] at shorter
          omega
        have hlater := tookNext_parseAlternatives more
        simp only [if_pos hbar]
        cases hread : parseAlternatives v more with
        | rejected cause rest => rfl
        | accepted ts rest ahead' shorter' =>
          rw [hread] at hlater
          exact hlater
      · simp only [if_neg hbar]
        rfl
termination_by tokens.length

/-- An empty set ends at its sign, and any other one at the next token. -/
theorem tookNext_parseSet (tokens : List String) :
    (parseSet v tokens).tookNext =
      (parseSet v tokens).result.toOption.any fun s => !s.isEmpty := by
  unfold parseSet
  cases tokens with
  | nil => rfl
  | cons token rest =>
    by_cases hsign : isEmptySign token = true
    · simp only [if_pos hsign]
      rfl
    · have halternatives := tookNext_parseAlternatives (v := v) (token :: rest)
      have hderived := justified_parseAlternatives (v := v) (token :: rest)
      simp only [if_neg hsign]
      cases hread : parseAlternatives v (token :: rest) with
      | rejected cause rest => rfl
      | accepted ts rest ahead shorter =>
        rw [hread] at halternatives hderived
        obtain ⟨taken, -, hts⟩ := hderived
        obtain ⟨t, later, rfl⟩ := List.exists_cons_of_ne_nil hts.ne_nil
        have hinhabited : (Ascending.ofList (t :: later)).isEmpty = false :=
          Ascending.isEmpty_eq_false_iff.2 ⟨t, Ascending.mem_ofList.2 List.mem_cons_self⟩
        simp only [Parsed.tookNext, Parsed.result, Except.toOption, Option.any, hinhabited]
        exact halternatives

/-- Parameters end at their closing bracket. -/
theorem tookNext_parseParameters (tokens : List String) :
    (parseParameters v tokens).tookNext = false := by
  rw [parseParameters.eq_def]
  cases parseSet v tokens with
  | rejected cause rest => rfl
  | accepted p rest ahead shorter =>
    cases rest with
    | nil => rfl
    | cons next more =>
      by_cases hcomma : next = ","
      · have hmore : more.length < tokens.length := by
          simp only [List.length_cons] at shorter
          omega
        have hlater := tookNext_parseParameters more
        simp only [if_pos hcomma]
        cases hread : parseParameters v more with
        | rejected cause rest => rfl
        | accepted ps rest ahead' shorter' =>
          rw [hread] at hlater
          exact hlater
      · by_cases hclose : next = ")" <;> simp [hcomma, hclose, Parsed.tookNext]
termination_by tokens.length

/-- A signature ends at its closing bracket. -/
theorem tookNext_parseSignature (tokens : List String) :
    (parseSignature v tokens).tookNext = false := by
  unfold parseSignature
  cases tokens with
  | nil => rfl
  | cons token inner =>
    by_cases hopen : token = "("
    · simp only [if_neg (not_not_intro hopen)]
      cases inner with
      | nil => rfl
      | cons next rest =>
        by_cases hclose : next = ")"
        · simp only [if_pos hclose]
          rfl
        · have hparameters := tookNext_parseParameters (v := v) (next :: rest)
          simp only [if_neg hclose]
          cases hread : parseParameters v (next :: rest) with
          | rejected cause rest => rfl
          | accepted ps rest ahead shorter =>
            rw [hread] at hparameters
            exact hparameters
    · simp only [if_pos hopen]
      rfl

end Lookahead

section Phrases

/-- A tag with arguments ends with a closing bracket. -/
theorem DerivesTag.getLast?_eq {taken : List String} {t : Tag} (h : DerivesTag v taken t)
    (hatom : t.isAtom = false) : taken.getLast? = some ")" := by
  cases h with
  | atom htoken => cases hatom
  | @applied token n inner ts htoken hts =>
    have htaken : token :: "(" :: (inner ++ [")"]) = (token :: "(" :: inner) ++ [")"] := rfl
    rw [htaken, List.getLast?_concat]

/-- A tag at the beginning of a source is taken from it, with the next token if
the tag is a name alone. -/
theorem yields_parseTag {taken rest : List String} {t : Tag} (h : DerivesTag v taken t)
    (hrest : EndsBefore taken rest) :
    (parseTag v (taken ++ rest)).Yields t (if t.isAtom then rest.tail else rest) := by
  have hyields := Parsed.yields_of_outcome (outcome_parseTag_append h hrest)
  rwa [tookNext_parseTag, hyields.1] at hyields

/-- A sign of the empty set at the beginning of a source is taken from it. -/
theorem yields_parseSet_sign {token : String} (h : isEmptySign token = true)
    (rest : List String) : (parseSet v (token :: rest)).Yields ∅ rest := by
  have houtcome : (parseSet v (token :: rest)).outcome = .ok (∅, rest) := by
    rw [outcome_parseSet_cons, if_pos h]
  have hyields := Parsed.yields_of_outcome houtcome
  rwa [tookNext_parseSet, hyields.1] at hyields

/-- A set with members at the beginning of a source is taken from it, with the
next token. -/
theorem yields_parseSet {taken rest : List String} {s : TypeSet} (h : DerivesSet v taken s)
    (hne : s.isEmpty = false) (hrest : EndsBefore taken rest) (hbar : rest.head? ≠ some "|") :
    (parseSet v (taken ++ rest)).Yields s rest.tail := by
  have hyields := Parsed.yields_of_outcome (outcome_parseSet_append h hrest hbar)
  rw [tookNext_parseSet, hyields.1] at hyields
  simpa [Except.toOption, hne] using hyields

/-- A signature at the beginning of a source is taken from it. -/
theorem yields_parseSignature {taken : List String} {s : Signature}
    (h : DerivesSignature v taken s) (rest : List String) :
    (parseSignature v (taken ++ rest)).Yields s rest := by
  have hyields := Parsed.yields_of_outcome (outcome_parseSignature_append h rest)
  rwa [tookNext_parseSignature] at hyields

end Phrases

/-- Read a number of signatures one after the other from one source, and say what
the source still holds. -/
def readInTurn (v : Vocabulary) :
    Nat → List String → List (Except ParseError Signature) × List String
  | 0, source => ([], source)
  | count + 1, source =>
    let first := parseSignature v source
    let (later, left) := readInTurn v count first.source
    (first.result :: later, left)

/-- Signatures that stand one behind the other in a source are read in turn. -/
theorem readInTurn_append {phrases : List (List String)} {ss : List Signature}
    (h : List.Forall₂ (DerivesSignature v) phrases ss) (rest : List String) :
    readInTurn v ss.length (phrases.flatten ++ rest) = (ss.map .ok, rest) := by
  induction h with
  | nil => rfl
  | @cons taken s phrases ss hs hss ih =>
    obtain ⟨hresult, hsource⟩ := yields_parseSignature hs (phrases.flatten ++ rest)
    rw [List.flatten_cons, List.append_assoc, List.length_cons, readInTurn]
    simp only [hsource, ih, hresult, List.map_cons]

/-- A phrase at the beginning of a source is read in full. Behind a signature, a
tag with arguments or a sign of the empty set the source keeps everything, so
that signatures can be read in turn. Behind a name alone or a set with members
the source loses the next token, which must not be one that goes on with the
phrase. -/
theorem consumes_phrase (v : Vocabulary) :
    (∀ taken s rest, DerivesSignature v taken s →
        (parseSignature v (taken ++ rest)).Yields s rest) ∧
      (∀ phrases ss rest, List.Forall₂ (DerivesSignature v) phrases ss →
        readInTurn v ss.length (phrases.flatten ++ rest) = (ss.map .ok, rest)) ∧
      (∀ taken t rest, DerivesTag v taken t → t.isAtom = false →
        (parseTag v (taken ++ rest)).Yields t rest) ∧
      (∀ token t rest, DerivesTag v [token] t → rest.head? ≠ some "(" →
        (parseTag v (token :: rest)).Yields t rest.tail) ∧
      (∀ token rest, isEmptySign token = true → (parseSet v (token :: rest)).Yields ∅ rest) ∧
      ∀ taken s rest, DerivesSet v taken s → s ≠ ∅ → rest.head? ≠ some "|" →
        (taken.getLast? ≠ some ")" → rest.head? ≠ some "(") →
        (parseSet v (taken ++ rest)).Yields s rest.tail := by
  refine ⟨fun taken s rest hs => yields_parseSignature hs rest,
    fun phrases ss rest hss => readInTurn_append hss rest, fun taken t rest ht hatom => ?_,
    fun token t rest ht hopen => ?_, fun token rest hsign => yields_parseSet_sign hsign rest,
    fun taken s rest hs hne hbar hopen => ?_⟩
  · have hends : EndsBefore taken rest := fun _ => ht.getLast?_eq hatom
    have hyields := yields_parseTag ht hends
    rwa [hatom] at hyields
  · have hends : EndsBefore [token] rest := fun hnext => absurd hnext hopen
    have hyields := yields_parseTag ht hends
    cases ht with
    | atom htoken => exact hyields
  · have hmember : s.isEmpty = false := by
      rw [Bool.eq_false_iff]
      exact fun hempty => hne (Ascending.isEmpty_iff.1 hempty)
    refine yields_parseSet hs hmember (fun hnext => ?_) hbar
    by_contra hlast
    exact hopen hlast hnext

/-- The tag that `F(B)` stands for. -/
def appliedTag : Tag := .mk ⟨"F", by decide⟩ [.atom ⟨"B", by decide⟩]

/-- The set that `E | F(B)` stands for. -/
def mixedSet : TypeSet := .ofList [.atom ⟨"E", by decide⟩, appliedTag]

/-- Two signatures are read in turn up to the token behind them. The set of the
first one loses an opening bracket behind it, which its last tag does not
need. -/
theorem consumes_phrase_mixed :
    readInTurn {} 2 ["(", "E", "|", "F", "(", "B", ")", ",", "_|_", ")", "(", ")", "x"] =
        ([.ok ⟨[mixedSet, ∅]⟩, .ok ⟨[]⟩], ["x"]) ∧
      (parseSet {} ["E", "|", "F", "(", "B", ")", "(", "x"]).Yields mixedSet ["x"] ∧
      (parseTag {} ["F", "(", "B", ")", "(", "x"]).Yields appliedTag ["(", "x"] ∧
      (parseTag {} ["B", ")", "x"]).Yields (.atom ⟨"B", by decide⟩) ["x"] ∧
      (parseSet {} ["_|_", "(", "x"]).Yields ∅ ["(", "x"] := by
  have hatom : DerivesTag {} ["E"] (.atom ⟨"E", by decide⟩) :=
    .atom (nameToken_of_open rfl ⟨"E", by decide⟩ (by decide))
  have hargument : DerivesTag {} ["B"] (.atom ⟨"B", by decide⟩) :=
    .atom (nameToken_of_open rfl ⟨"B", by decide⟩ (by decide))
  have happlied : DerivesTag {} ["F", "(", "B", ")"] appliedTag :=
    .applied (nameToken_of_open rfl ⟨"F", by decide⟩ (by decide)) (.one hargument)
  have hmixed : DerivesSet {} ["E", "|", "F", "(", "B", ")"] mixedSet :=
    .ofTags (.more hatom (.one happlied))
  have hsignature : DerivesSignature {}
      ["(", "E", "|", "F", "(", "B", ")", ",", "_|_", ")"] ⟨[mixedSet, ∅]⟩ :=
    .ofSets (.more hmixed (.one (.empty (by decide))))
  obtain ⟨-, hturn, htag, hsingle, hsign, hset⟩ := consumes_phrase {}
  exact ⟨hturn _ _ ["x"] (.cons hsignature (.cons .empty .nil)),
    hset _ _ ["(", "x"] hmixed (by decide) (by decide) (by decide),
    htag _ _ ["(", "x"] happlied rfl, hsingle _ _ [")", "x"] hargument (by decide),
    hsign _ ["(", "x"] (by decide)⟩

end DispatchCoverage.Surface

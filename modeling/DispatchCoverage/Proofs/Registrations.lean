import DispatchCoverage.Proofs.ClosedVocabulary
import DispatchCoverage.Surface.Dictionary

/-!
# Registrations

A dictionary that only grows by registration stores every tag under its own name and
without arguments, so it is the dictionary of a vocabulary. Whatever is done with the
dictionary of a vocabulary is what is done with the vocabulary: no atomic tag is
refused, a name is looked up as its atomic tag, and reading never applies a tag twice.
-/

namespace DispatchCoverage

namespace Tag

/-- A tag without arguments is the atomic tag of its name. -/
theorem atom_name_of_isAtom {t : Tag} (h : t.isAtom = true) : atom t.name = t := by
  obtain ⟨n, ts⟩ := t
  obtain rfl : ts = [] := List.isEmpty_iff.1 h
  rfl

/-- Tags are the tags among themselves. -/
theorem argumentsOfValues_map_tag (n : Name) (ts : List Tag) :
    argumentsOfValues n (ts.map .tag) = .ok ts := by
  induction ts with
  | nil => rfl
  | cons t ts ih =>
    rw [List.map_cons, argumentsOfValues, ih]
    rfl

/-- An atomic tag can be applied to any tags. -/
theorem applyValues_atom (n : Name) (ts : List Tag) :
    (atom n).applyValues (ts.map .tag) = .ok (mk n ts) := by
  have hatom : (atom n).isAtom = true := rfl
  rw [applyValues, if_pos hatom, argumentsOfValues_map_tag]
  rfl

end Tag

/-- The names of the atomic tags among some values. -/
def atomicNames (values : List Value) : List Name :=
  values.filterMap fun
    | .tag t => if t.isAtom then some t.name else none
    | _ => none

/-- The names that a registration is about. -/
def Registration.names : Registration → List Name
  | .tag t => atomicNames [.tag t]
  | .scope bindings => atomicNames ((lastBindings bindings).map Prod.snd)

/-- Register names, in order. -/
def Vocabulary.registerAll (v : Vocabulary) (names : List Name) : Vocabulary :=
  names.foldl register v

/-- The dictionary that stores the atomic tag of every registered name. -/
def Vocabulary.dictionary (v : Vocabulary) : Dictionary where
  entries := v.names.map fun n => (n.text, Tag.atom n)
  closed := v.closed

namespace Dictionary

/-- The dictionary after a registration. -/
def enroll (d : Dictionary) : Registration → Dictionary
  | .tag t => (d.add t).2
  | .scope bindings => (d.addScope bindings).2

/-- The dictionary after several registrations, in order. -/
def enrollAll (d : Dictionary) (registrations : List Registration) : Dictionary :=
  registrations.foldl enroll d

end Dictionary

namespace Vocabulary

open Surface

variable {v : Vocabulary} {n : Name} {t : Tag}

/-- A vocabulary can be got back from its dictionary. -/
theorem vocabulary_dictionary (v : Vocabulary) : v.dictionary.vocabulary = v := by
  unfold dictionary Dictionary.vocabulary
  rw [List.map_map]
  exact congrArg (Vocabulary.mk · _) (List.map_id _)

section Growing

/-- The names of the atomic tags among some values are those of which the atomic tag
is a value. -/
theorem mem_atomicNames {values : List Value} :
    n ∈ atomicNames values ↔ Value.tag (Tag.atom n) ∈ values := by
  unfold atomicNames
  rw [List.mem_filterMap]
  constructor
  · rintro ⟨x, hx, hname⟩
    cases x with
    | tag t =>
      cases hatom : t.isAtom with
      | true =>
        obtain rfl : t.name = n := by simpa [hatom] using hname
        rwa [Tag.atom_name_of_isAtom hatom]
      | false => simp [hatom] at hname
    | _ => cases hname
  · exact fun h => ⟨_, h, rfl⟩

/-- Registering the atomic tags among some values registers their names. -/
theorem addValues_eq_registerAll (v : Vocabulary) (values : List Value) :
    v.addValues values = v.registerAll (atomicNames values) := by
  induction values generalizing v with
  | nil => rfl
  | cons x values ih =>
    cases x with
    | tag t =>
      rw [addValues, ih]
      cases hatom : t.isAtom with
      | true => simp [atomicNames, registerAll, hatom]
      | false => simp [atomicNames, hatom]
    | _ => exact ih v

/-- A registration registers the names that it is about. -/
theorem enroll_eq_registerAll (v : Vocabulary) (registration : Registration) :
    v.enroll registration = v.registerAll registration.names := by
  cases registration with
  | tag t =>
    simp only [enroll, add]
    cases hatom : t.isAtom with
    | true => simp [Registration.names, atomicNames, registerAll, hatom]
    | false => simp [Registration.names, atomicNames, registerAll, hatom]
  | scope bindings => exact addValues_eq_registerAll v _

/-- Registrations register the names that they are about. -/
theorem enrollAll_eq_registerAll (v : Vocabulary) (registrations : List Registration) :
    v.enrollAll registrations = v.registerAll (registrations.flatMap Registration.names) := by
  induction registrations generalizing v with
  | nil => rfl
  | cons registration registrations ih =>
    have hlater := ih (v.enroll registration)
    simp only [enrollAll, registerAll, List.foldl_cons, List.flatMap_cons, List.foldl_append]
      at hlater ⊢
    rw [hlater, enroll_eq_registerAll]
    rfl

/-- Names are registered behind those that are registered already, each name once. -/
theorem exists_later (v : Vocabulary) (names : List Name) :
    ∃ later, v.registerAll names = ⟨v.names ++ later, v.closed⟩ ∧ later.Nodup ∧
      ∀ n, n ∈ later ↔ n ∉ v.names ∧ n ∈ names := by
  induction names generalizing v with
  | nil => exact ⟨[], by simp [registerAll], List.nodup_nil, by simp⟩
  | cons n names ih =>
    obtain ⟨later, hnames, hnodup, hlater⟩ := ih (v.register n)
    have hrest : v.registerAll (n :: names) = (v.register n).registerAll names := rfl
    rw [hrest, hnames]
    by_cases hn : v.names.contains n = true
    · have hsame : v.register n = v := if_pos hn
      rw [hsame] at hlater ⊢
      refine ⟨later, rfl, hnodup, fun m => ?_⟩
      rw [hlater, List.mem_cons]
      have hmem := List.contains_iff_mem.1 hn
      grind
    · have hnew : v.register n = ⟨v.names ++ [n], v.closed⟩ := if_neg hn
      rw [hnew] at hlater ⊢
      have hmem : n ∉ v.names := fun hmem => hn (List.contains_iff_mem.2 hmem)
      refine ⟨n :: later, by simp, List.nodup_cons.2 ⟨fun hagain => ?_, hnodup⟩, fun m => ?_⟩
      · exact ((hlater n).1 hagain).1 (by simp)
      · have hm := hlater m
        simp only [List.mem_append, List.mem_singleton, not_or] at hm
        rw [List.mem_cons, List.mem_cons, hm]
        grind

/-- No name is registered twice. -/
theorem nodup_registerAll (h : v.names.Nodup) (names : List Name) :
    (v.registerAll names).names.Nodup := by
  obtain ⟨later, hnames, hnodup, hlater⟩ := v.exists_later names
  rw [hnames]
  exact List.nodup_append.2 ⟨h, hnodup, fun m hm n hn hmn => ((hlater n).1 hn).1 (hmn ▸ hm)⟩

end Growing

section Registering

/-- Under a key is stored the atomic tag of the registered name with that text. -/
theorem find?_dictionary {key : String} :
    v.dictionary.find? key = some t ↔ ∃ n ∈ v.names, n.text = key ∧ t = Tag.atom n := by
  unfold Dictionary.find?
  rw [Option.map_eq_some_iff]
  constructor
  · rintro ⟨e, he, rfl⟩
    obtain ⟨n, hn, rfl⟩ := List.mem_map.1 (List.mem_of_find?_eq_some he)
    exact ⟨n, hn, by simpa using List.find?_some he, rfl⟩
  · rintro ⟨n, hn, rfl, rfl⟩
    cases hfind : v.dictionary.entries.find? (fun e => e.1 == n.text) with
    | none =>
      have hnone := List.find?_eq_none.1 hfind _ (List.mem_map_of_mem hn)
      simp at hnone
    | some e =>
      obtain ⟨m, -, rfl⟩ := List.mem_map.1 (List.mem_of_find?_eq_some hfind)
      have htext : m.text = n.text := by simpa using List.find?_some hfind
      exact ⟨_, rfl, congrArg Tag.atom (Name.text_injective htext)⟩

/-- Storing the atomic tag of a name under the name registers the name. -/
theorem store_dictionary (n : Name) :
    v.dictionary.store n.text (Tag.atom n) = (v.register n).dictionary := by
  have hmem : v.dictionary.entries.any (fun e => e.1 == n.text) = v.names.contains n := by
    rw [Bool.eq_iff_iff, List.any_eq_true, List.contains_iff_mem]
    constructor
    · rintro ⟨e, he, htext⟩
      obtain ⟨m, hm, rfl⟩ := List.mem_map.1 he
      exact Name.text_injective (beq_iff_eq.1 htext) ▸ hm
    · exact fun hn => ⟨_, List.mem_map_of_mem hn, beq_self_eq_true _⟩
  unfold Dictionary.store register
  rw [hmem]
  split
  · -- the tag is stored in its own place again
    refine congrArg (Dictionary.mk · _) ?_
    unfold dictionary
    rw [List.map_map]
    refine List.map_congr_left fun m _ => ?_
    dsimp only [Function.comp]
    split
    · rename_i htext
      rw [Name.text_injective (beq_iff_eq.1 htext)]
    · rfl
  · simp [dictionary]

/-- Registering a tag in a dictionary is refused exactly if the tag has arguments. -/
theorem add_dictionary (t : Tag) :
    v.dictionary.add t =
      if t.isAtom then (.ok (), (v.register t.name).dictionary)
      else (.error (.notAtomic ⟨t⟩), v.dictionary) := by
  unfold Dictionary.add
  cases hatom : t.isAtom with
  | false => rfl
  | true =>
    have hown : (v.dictionary.find? t.name.text).getD t = t := by
      cases hfind : v.dictionary.find? t.name.text with
      | none => rfl
      | some u =>
        obtain ⟨n, -, htext, rfl⟩ := find?_dictionary.1 hfind
        rw [Name.text_injective htext]
        exact Tag.atom_name_of_isAtom hatom
    have hstore := store_dictionary (v := v) t.name
    rw [Tag.atom_name_of_isAtom hatom] at hstore
    simp [hown, hstore]

/-- Registering the atomic tags among some values in a dictionary is never refused. -/
theorem addValues_dictionary (values : List Value) :
    v.dictionary.addValues values = (.ok (), (v.addValues values).dictionary) := by
  induction values generalizing v with
  | nil => rfl
  | cons x values ih =>
    cases x with
    | tag t =>
      rw [Dictionary.addValues, addValues, add_dictionary]
      split
      · exact ih
      · exact ih
    | _ => exact ih

/-- The dictionary of a scope is that of its vocabulary. -/
theorem ofScope_dictionary (scope : List (String × Value)) (closed : Option Bool) :
    Dictionary.ofScope scope closed = .ok (ofScope scope closed).dictionary := by
  have hempty : ({} : Dictionary) = ({} : Vocabulary).dictionary := rfl
  unfold Dictionary.ofScope Dictionary.addScope
  rw [hempty, addValues_dictionary]
  rfl

/-- A registration does with the dictionary what it does with the vocabulary. -/
theorem enroll_dictionary (registration : Registration) :
    v.dictionary.enroll registration = (v.enroll registration).dictionary := by
  cases registration with
  | tag t =>
    simp only [Dictionary.enroll, enroll, add, add_dictionary]
    split <;> rfl
  | scope bindings =>
    simp only [Dictionary.enroll, Dictionary.addScope, addValues_dictionary]
    rfl

/-- Registrations do with the dictionary what they do with the vocabulary. -/
theorem enrollAll_dictionary (registrations : List Registration) :
    v.dictionary.enrollAll registrations = (v.enrollAll registrations).dictionary := by
  induction registrations generalizing v with
  | nil => rfl
  | cons registration registrations ih =>
    have hfirst := enroll_dictionary (v := v) registration
    simp only [Dictionary.enrollAll, enrollAll, List.foldl_cons] at ih ⊢
    rw [hfirst, ih]

end Registering

section Reading

/-- A text that is not empty is looked up as the atomic tag of the name it stands
for. -/
theorem lookup_dictionary {token : String} (h : token ≠ "") :
    v.dictionary.lookup token = .ok ((v.name? token).map Tag.atom) := by
  unfold Dictionary.lookup
  cases hfind : v.dictionary.find? token with
  | some t =>
    obtain ⟨n, hn, rfl, rfl⟩ := find?_dictionary.1 hfind
    rw [name?_eq_some_iff.2 ⟨rfl, fun _ => hn⟩]
    rfl
  | none =>
    have hunknown : v.hasText token = false := by
      unfold hasText
      rw [List.any_eq_false]
      intro n hn htext
      have hsome := find?_dictionary.2 ⟨n, hn, beq_iff_eq.1 htext, rfl⟩
      rw [hfind] at hsome
      cases hsome
    have hclosed : v.dictionary.closed = v.closed := rfl
    unfold name?
    rw [hunknown, hclosed]
    cases v.closed with
    | true => rfl
    | false => simp [Tag.ofValues, Name.ofString?, h, Tag.argumentsOfValues, Tag.atom, Except.map]

/-- A name is looked up as its atomic tag, unless the dictionary is closed and lacks
the name. -/
theorem lookup_dictionary_name (n : Name) :
    v.dictionary.lookup n.text =
      .ok (if v.dictionary.closed && (v.dictionary.find? n.text).isNone then none
        else some (Tag.atom n)) := by
  have hclosed : v.dictionary.closed = v.closed := rfl
  rw [lookup_dictionary n.nonempty, hclosed]
  refine congrArg Except.ok ?_
  cases hfind : v.dictionary.find? n.text with
  | some t =>
    obtain ⟨m, hm, htext, -⟩ := find?_dictionary.1 hfind
    rw [name?_eq_some_iff.2 ⟨rfl, fun _ => Name.text_injective htext ▸ hm⟩]
    simp
  | none =>
    cases hc : v.closed with
    | false =>
      rw [name?_eq_some_iff.2 ⟨rfl, fun h => by simp [hc] at h⟩]
      rfl
    | true =>
      have hname : v.name? n.text = none := by
        cases hname : v.name? n.text with
        | none => rfl
        | some m =>
          obtain ⟨htext, hm⟩ := name?_eq_some_iff.1 hname
          rw [find?_dictionary.2 ⟨m, hm hc, htext, rfl⟩] at hfind
          cases hfind
      rw [hname]
      rfl

mutual

/-- A tag is read with the dictionary as it is with the vocabulary. -/
theorem parseTag_dictionary (tokens : List String) :
    v.dictionary.parseTag tokens = .ok (parseTag v tokens) := by
  rw [Dictionary.parseTag.eq_def, parseTag.eq_def]
  cases tokens with
  | nil => rfl
  | cons token rest =>
    dsimp only
    split
    · rfl
    · rename_i hsign
      have hne : token ≠ "" := by
        rintro rfl
        exact hsign (by decide)
      rw [lookup_dictionary hne]
      cases v.name? token with
      | none => rfl
      | some n =>
        cases rest with
        | nil => rfl
        | cons next inner =>
          have harguments := parseArguments_dictionary inner
          dsimp only [Option.map]
          split
          · rw [harguments]
            cases parseArguments v inner with
            | rejected cause rest => rfl
            | accepted ts rest ahead shorter =>
              dsimp only
              rw [Tag.applyValues_atom]
              rfl
          · rfl
termination_by (tokens.length, 0)

/-- Arguments are read with the dictionary as they are with the vocabulary. -/
theorem parseArguments_dictionary (tokens : List String) :
    v.dictionary.parseArguments tokens = .ok (parseArguments v tokens) := by
  rw [Dictionary.parseArguments.eq_def, parseArguments.eq_def, parseTag_dictionary tokens]
  cases parseTag v tokens with
  | rejected cause rest => rfl
  | accepted t rest ahead shorter =>
    cases rest with
    | nil => rfl
    | cons next more =>
      have hmore : more.length < tokens.length := by
        simp only [List.length_cons] at shorter
        omega
      have hlater := parseArguments_dictionary more
      dsimp only
      rw [hlater]
      split
      · cases parseArguments v more <;> rfl
      · split <;> rfl
termination_by (tokens.length, 1)

end

/-- Alternatives are read with the dictionary as they are with the vocabulary. -/
theorem parseAlternatives_dictionary (tokens : List String) :
    v.dictionary.parseAlternatives tokens = .ok (parseAlternatives v tokens) := by
  rw [Dictionary.parseAlternatives.eq_def, parseAlternatives.eq_def, parseTag_dictionary]
  cases parseTag v tokens with
  | rejected cause rest => rfl
  | accepted t rest ahead shorter =>
    cases rest with
    | nil => rfl
    | cons next more =>
      have hmore : more.length < tokens.length := by
        simp only [List.length_cons] at shorter
        omega
      have hlater := parseAlternatives_dictionary more
      dsimp only
      rw [hlater]
      split
      · cases parseAlternatives v more <;> rfl
      · rfl
termination_by tokens.length

/-- A set is read with the dictionary as it is with the vocabulary. -/
theorem parseSet_dictionary (tokens : List String) :
    v.dictionary.parseSet tokens = .ok (parseSet v tokens) := by
  unfold Dictionary.parseSet parseSet
  cases tokens with
  | nil => rfl
  | cons token rest =>
    dsimp only
    rw [parseAlternatives_dictionary]
    split
    · rfl
    · cases parseAlternatives v (token :: rest) <;> rfl

/-- Parameters are read with the dictionary as they are with the vocabulary. -/
theorem parseParameters_dictionary (tokens : List String) :
    v.dictionary.parseParameters tokens = .ok (parseParameters v tokens) := by
  rw [Dictionary.parseParameters.eq_def, parseParameters.eq_def, parseSet_dictionary]
  cases parseSet v tokens with
  | rejected cause rest => rfl
  | accepted p rest ahead shorter =>
    cases rest with
    | nil => rfl
    | cons next more =>
      have hmore : more.length < tokens.length := by
        simp only [List.length_cons] at shorter
        omega
      have hlater := parseParameters_dictionary more
      dsimp only
      rw [hlater]
      split
      · cases parseParameters v more <;> rfl
      · split <;> rfl
termination_by tokens.length

/-- A signature is read with the dictionary as it is with the vocabulary. -/
theorem parseSignature_dictionary (tokens : List String) :
    v.dictionary.parseSignature tokens = .ok (parseSignature v tokens) := by
  unfold Dictionary.parseSignature parseSignature
  cases tokens with
  | nil => rfl
  | cons token inner =>
    dsimp only
    split
    · rfl
    · cases inner with
      | nil => rfl
      | cons next rest =>
        dsimp only
        rw [parseParameters_dictionary]
        split
        · rfl
        · cases parseParameters v (next :: rest) <;> rfl

/-- A justified reading is not rejected for a stray implementation. -/
theorem ne_strayImplementation {α : Type} {derives : List String → α → Prop}
    {tokens : List String} {p : Parsed α tokens} {cause : ParseError}
    (hsound : Justified derives tokens p.outcome) (h : p.result = .error cause) :
    cause ≠ .strayImplementation := by
  cases p with
  | accepted value rest ahead shorter => cases h
  | rejected cause' rest =>
    cases h
    exact hsound

end Reading

end Vocabulary

namespace Dictionary

/-- The entries of the dictionary are the registered names with their atomic tags. -/
theorem mem_entries {v : Vocabulary} {e : String × Tag} :
    e ∈ v.dictionary.entries ↔ ∃ n ∈ v.names, e = (n.text, Tag.atom n) := by
  unfold Vocabulary.dictionary
  rw [List.mem_map]
  exact exists_congr fun n => and_congr_right fun _ => eq_comm

/-- A scope adds entries for the names of its atomic tags that are not registered
yet. -/
theorem addScope_dictionary (v : Vocabulary) (bindings : List (String × Value)) :
    (v.dictionary.addScope bindings).1 = .ok () ∧
      ∃ later, (v.dictionary.addScope bindings).2 =
          ⟨v.dictionary.entries ++ later, v.dictionary.closed⟩ ∧
        ∀ e, e ∈ later ↔ e ∉ v.dictionary.entries ∧ ∃ n : Name, e = (n.text, Tag.atom n) ∧
          Value.tag (Tag.atom n) ∈ (lastBindings bindings).map Prod.snd := by
  unfold addScope
  rw [Vocabulary.addValues_dictionary, Vocabulary.addValues_eq_registerAll]
  obtain ⟨later, hnames, -, hlater⟩ :=
    v.exists_later (atomicNames ((lastBindings bindings).map Prod.snd))
  rw [hnames]
  refine ⟨rfl, later.map fun n => (n.text, Tag.atom n), by simp [Vocabulary.dictionary], ?_⟩
  intro e
  rw [List.mem_map]
  constructor
  · rintro ⟨n, hn, rfl⟩
    obtain ⟨hnew, hvalue⟩ := (hlater n).1 hn
    refine ⟨fun hold => ?_, n, rfl, Vocabulary.mem_atomicNames.1 hvalue⟩
    obtain ⟨m, hm, heq⟩ := mem_entries.1 hold
    obtain rfl : n = m := Name.text_injective (Prod.mk.inj heq).1
    exact hnew hm
  · rintro ⟨hnew, n, rfl, hvalue⟩
    refine ⟨n, (hlater n).2 ⟨fun hold => ?_, Vocabulary.mem_atomicNames.2 hvalue⟩, rfl⟩
    exact hnew (mem_entries.2 ⟨n, hold, rfl⟩)

/-- The dictionary of a scope, after any registrations, stores every tag once, under
its own name and without arguments. A tag is refused exactly if it has arguments,
which changes nothing; a scope is never refused, and its atomic tags are registered
behind all others. So a name is looked up as its atomic tag, unless the dictionary is
closed and lacks the name, and reading from any tokens gives a value or an error about
the tokens. -/
theorem registered_atoms (scope : List (String × Value)) (closed : Option Bool)
    (registrations : List Registration) :
    ∃ start, ofScope scope closed = .ok start ∧
      let d := start.enrollAll registrations
      (d.entries.map Prod.fst).Nodup ∧
      (∀ e ∈ d.entries, ∃ n : Name, e = (n.text, Tag.atom n)) ∧
      (∀ t : Tag, ((∃ e, (d.add t).1 = .error e) ↔ t.isAtom = false) ∧
        (t.isAtom = false → (d.add t).2 = d)) ∧
      (∀ bindings : List (String × Value), (d.addScope bindings).1 = .ok () ∧
        ∃ later, (d.addScope bindings).2 = ⟨d.entries ++ later, d.closed⟩ ∧
          ∀ e, e ∈ later ↔ e ∉ d.entries ∧ ∃ n : Name, e = (n.text, Tag.atom n) ∧
            Value.tag (Tag.atom n) ∈ (lastBindings bindings).map Prod.snd) ∧
      (∀ n : Name, d.lookup n.text =
        .ok (if d.closed && (d.find? n.text).isNone then none else some (Tag.atom n))) ∧
      ∀ tokens : List String,
        (∃ p, d.parseTag tokens = .ok p ∧
          ∀ cause, p.result = .error cause → cause ≠ .strayImplementation) ∧
        (∃ p, d.parseSet tokens = .ok p ∧
          ∀ cause, p.result = .error cause → cause ≠ .strayImplementation) ∧
        ∃ p, d.parseSignature tokens = .ok p ∧
          ∀ cause, p.result = .error cause → cause ≠ .strayImplementation := by
  refine ⟨_, Vocabulary.ofScope_dictionary scope closed, ?_⟩
  have hstart : (Vocabulary.ofScope scope closed).names.Nodup := by
    unfold Vocabulary.ofScope Vocabulary.addScope
    rw [Vocabulary.addValues_eq_registerAll]
    exact Vocabulary.nodup_registerAll List.nodup_nil _
  rw [Vocabulary.enrollAll_dictionary, Vocabulary.enrollAll_eq_registerAll]
  have hnodup := Vocabulary.nodup_registerAll hstart (registrations.flatMap Registration.names)
  generalize (Vocabulary.ofScope scope closed).registerAll _ = v at hnodup
  refine ⟨?_, fun e he => ?_, fun t => ?_, addScope_dictionary v,
    Vocabulary.lookup_dictionary_name, fun tokens => ⟨?_, ?_, ?_⟩⟩
  · unfold Vocabulary.dictionary
    rw [List.map_map]
    exact List.pairwise_map.2 (hnodup.imp fun hne htext => hne (Name.text_injective htext))
  · obtain ⟨n, -, heq⟩ := mem_entries.1 he
    exact ⟨n, heq⟩
  · rw [Vocabulary.add_dictionary]
    cases t.isAtom with
    | true => simp
    | false => simp
  · exact ⟨_, Vocabulary.parseTag_dictionary tokens,
      fun _ => Vocabulary.ne_strayImplementation (Surface.justified_parseTag tokens)⟩
  · exact ⟨_, Vocabulary.parseSet_dictionary tokens,
      fun _ => Vocabulary.ne_strayImplementation (Surface.justified_parseSet tokens)⟩
  · exact ⟨_, Vocabulary.parseSignature_dictionary tokens,
      fun _ => Vocabulary.ne_strayImplementation (Surface.justified_parseSignature tokens)⟩

end Dictionary

end DispatchCoverage

import DispatchCoverage.Surface.Parse

/-!
# Vocabularies as dictionaries

A vocabulary is stored as a dictionary from texts to tags, and nothing in its shape
says that a tag is stored under its own name or has no arguments. So registering
checks a tag twice, looking a text up gives whatever tag is stored there, and
reading applies this tag to its arguments, which is refused if it has some already.
-/

namespace DispatchCoverage

/-- Texts with the tags that they stand for. -/
structure Dictionary where
  /-- The keys and their tags, in the order of registration. -/
  entries : List (String × Tag) := []
  /-- Whether only registered keys are accepted. -/
  closed : Bool := false

/-- Why a tag could not be registered. -/
inductive RegistrationError where
  /-- The tag has arguments. -/
  | notAtomic (cause : NotAtomic)
  /-- Another tag is stored under the name of the tag. -/
  | taken (tag : Tag)

/-- The text that reports why a tag could not be registered. -/
def RegistrationError.message : RegistrationError → String
  | notAtomic cause => cause.message
  | taken tag => s!"Tag {tag} already exists in the language"

namespace Dictionary

/-- The tag that is stored under a key. -/
def find? (d : Dictionary) (key : String) : Option Tag :=
  (d.entries.find? (fun e => e.1 == key)).map Prod.snd

/-- Store a tag under a key: in the place of the tag that is stored there, or behind
all others. -/
def store (d : Dictionary) (key : String) (t : Tag) : Dictionary :=
  if d.entries.any (fun e => e.1 == key) then
    { d with entries := d.entries.map fun e => if e.1 == key then (key, t) else e }
  else { d with entries := d.entries ++ [(key, t)] }

/-- Register a tag under its name. This gives the error, if there is one, and the
dictionary afterwards. -/
def add (d : Dictionary) (t : Tag) : Except RegistrationError Unit × Dictionary :=
  if !t.isAtom then (.error (.notAtomic ⟨t⟩), d)
  else if (d.find? t.name.text).getD t ≠ t then (.error (.taken t), d)
  else (.ok (), d.store t.name.text t)

/-- Register the atomic tags among some values, up to the first that is refused. -/
def addValues (d : Dictionary) : List Value → Except RegistrationError Unit × Dictionary
  | [] => (.ok (), d)
  | .tag t :: rest =>
    if t.isAtom then
      match d.add t with
      | (.ok _, d) => addValues d rest
      | (.error e, d) => (.error e, d)
    else addValues d rest
  | _ :: rest => addValues d rest

/-- Register the atomic tags of a scope. -/
def addScope (d : Dictionary) (scope : List (String × Value)) :
    Except RegistrationError Unit × Dictionary :=
  d.addValues ((lastBindings scope).map Prod.snd)

/-- The dictionary of a scope. Unless stated otherwise it is closed exactly if the
scope has a binding. -/
def ofScope (scope : List (String × Value)) (closed : Option Bool := none) :
    Except RegistrationError Dictionary :=
  match addScope {} scope with
  | (.ok _, d) => .ok { d with closed := closed.getD (!scope.isEmpty) }
  | (.error e, _) => .error e

/-- The vocabulary with the names of all stored tags. -/
def vocabulary (d : Dictionary) : Vocabulary where
  names := d.entries.map fun e => e.2.name
  closed := d.closed

/-- The tag that a text stands for: the one that is stored there, or a new one of
that name if the dictionary is open. A closed dictionary has no other tags. -/
def lookup (d : Dictionary) (token : String) : Except TypeFault (Option Tag) :=
  match d.find? token with
  | some t => .ok (some t)
  | none => if d.closed then .ok none else (Tag.ofValues (.str token) []).map some

open Surface

section Length

variable {next : String} {later rest : List String}

/-- Behind a token stand fewer tokens. -/
theorem length_lt_cons (token : String) (rest : List String) :
    rest.length < (token :: rest).length :=
  Nat.lt_succ_self _

/-- Behind two tokens stand fewer tokens. -/
theorem length_lt_cons_cons (token next : String) (rest : List String) :
    rest.length < (token :: next :: rest).length :=
  Nat.lt_add_of_pos_right Nat.two_pos

/-- What is left of some tokens is less than these tokens and one more. -/
theorem length_lt_cons_of_lt (token : String) (h : rest.length < (next :: later).length) :
    rest.length < (token :: next :: later).length :=
  Nat.lt_succ_of_lt h

end Length

mutual

/-- Read a tag. -/
def parseTag (d : Dictionary) (tokens : List String) : Except TypeFault (Parsed Tag tokens) :=
  match tokens with
  | [] => .ok (.rejected .emptyInput [])
  | token :: rest =>
    if isReserved token || isEmptySign token then .ok (.rejected (.unexpected token) rest)
    else
      match d.lookup token with
      | .error fault => .error fault
      | .ok none => .ok (.rejected (.undefined token) rest)
      | .ok (some t) =>
        match rest with
        | [] => .ok (.accepted t [] true (length_lt_cons token []))
        | next :: inner =>
          if next = "(" then
            match parseArguments d inner with
            | .error fault => .error fault
            | .ok (.rejected cause rest) => .ok (.rejected cause rest)
            | .ok (.accepted ts rest ahead h) =>
              (t.applyValues (ts.map .tag)).map fun u =>
                .accepted u rest ahead (by simp only [List.length_cons]; omega)
          else .ok (.accepted t (next :: inner) true (length_lt_cons token (next :: inner)))
termination_by (tokens.length, 0)
decreasing_by
  refine Prod.Lex.left _ _ ?_
  simp only [List.length_cons]
  omega

/-- Read the arguments of a tag up to the closing bracket. -/
def parseArguments (d : Dictionary) (tokens : List String) :
    Except TypeFault (Parsed (List Tag) tokens) :=
  match parseTag d tokens with
  | .error fault => .error fault
  | .ok (.rejected cause rest) => .ok (.rejected cause rest)
  | .ok (.accepted _ [] _ _) => .ok (.rejected .bracketMismatch [])
  | .ok (.accepted t (next :: more) _ h) =>
    if next = "," then
      match parseArguments d more with
      | .error fault => .error fault
      | .ok (.rejected cause rest) => .ok (.rejected cause rest)
      | .ok (.accepted ts rest ahead h') =>
        .ok (.accepted (t :: ts) rest ahead (by simp only [List.length_cons] at h; omega))
    else if next = ")" then
      .ok (.accepted [t] more false (by simp only [List.length_cons] at h; omega))
    else .ok (.rejected .bracketMismatch more)
termination_by (tokens.length, 1)
decreasing_by
  · exact Prod.Lex.right _ Nat.zero_lt_one
  · refine Prod.Lex.left _ _ ?_
    simp only [List.length_cons] at h
    omega

end

/-- Read one or more tags with bars between them. -/
def parseAlternatives (d : Dictionary) (tokens : List String) :
    Except TypeFault (Parsed (List Tag) tokens) :=
  match parseTag d tokens with
  | .error fault => .error fault
  | .ok (.rejected cause rest) => .ok (.rejected cause rest)
  | .ok (.accepted t [] _ h) => .ok (.accepted [t] [] true h)
  | .ok (.accepted t (next :: more) _ h) =>
    if next = "|" then
      match parseAlternatives d more with
      | .error fault => .error fault
      | .ok (.rejected cause rest) => .ok (.rejected cause rest)
      | .ok (.accepted ts rest ahead h') =>
        .ok (.accepted (t :: ts) rest ahead (by simp only [List.length_cons] at h; omega))
    else .ok (.accepted [t] (next :: more) true h)
termination_by tokens.length
decreasing_by
  simp only [List.length_cons] at h
  omega

/-- Read a set. -/
def parseSet (d : Dictionary) (tokens : List String) : Except TypeFault (Parsed TypeSet tokens) :=
  match tokens with
  | [] => .ok (.rejected .emptyInput [])
  | token :: rest =>
    if isEmptySign token then .ok (.accepted ∅ rest false (length_lt_cons token rest))
    else
      match parseAlternatives d (token :: rest) with
      | .error fault => .error fault
      | .ok (.rejected cause rest) => .ok (.rejected cause rest)
      | .ok (.accepted ts rest ahead h) => .ok (.accepted (Ascending.ofList ts) rest ahead h)

/-- Read the parameters of a signature up to the closing bracket. -/
def parseParameters (d : Dictionary) (tokens : List String) :
    Except TypeFault (Parsed (List TypeSet) tokens) :=
  match parseSet d tokens with
  | .error fault => .error fault
  | .ok (.rejected cause rest) => .ok (.rejected cause rest)
  | .ok (.accepted _ [] _ _) => .ok (.rejected .bracketMismatch [])
  | .ok (.accepted p (next :: more) _ h) =>
    if next = "," then
      match parseParameters d more with
      | .error fault => .error fault
      | .ok (.rejected cause rest) => .ok (.rejected cause rest)
      | .ok (.accepted ps rest ahead h') =>
        .ok (.accepted (p :: ps) rest ahead (by simp only [List.length_cons] at h; omega))
    else if next = ")" then
      .ok (.accepted [p] more false (by simp only [List.length_cons] at h; omega))
    else .ok (.rejected .bracketMismatch more)
termination_by tokens.length
decreasing_by
  simp only [List.length_cons] at h
  omega

/-- Read a signature. -/
def parseSignature (d : Dictionary) (tokens : List String) :
    Except TypeFault (Parsed Signature tokens) :=
  match tokens with
  | [] => .ok (.rejected .emptyInput [])
  | token :: inner =>
    if token ≠ "(" then .ok (.rejected (.unexpected token) inner)
    else
      match inner with
      | [] => .ok (.rejected .emptyInput [])
      | next :: rest =>
        if next = ")" then
          .ok (.accepted ⟨[]⟩ rest false (length_lt_cons_cons token next rest))
        else
          match parseParameters d (next :: rest) with
          | .error fault => .error fault
          | .ok (.rejected cause rest) => .ok (.rejected cause rest)
          | .ok (.accepted ps rest ahead h) =>
            .ok (.accepted ⟨ps⟩ rest ahead (length_lt_cons_of_lt token h))

end Dictionary

end DispatchCoverage

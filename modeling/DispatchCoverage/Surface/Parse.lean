import DispatchCoverage.Surface.Token
import DispatchCoverage.Surface.Vocabulary

/-!
# Reading tags, sets and signatures

A tag is a name, or a name with one or more tags in brackets. A set is the
sign of the empty set, or one or more tags with bars between them. A signature
is a list of sets in brackets. Tokens are read from left to right with one
token of lookahead; every reader says what it leaves unread, and whether it
has already taken the first of that from its source.
-/

namespace DispatchCoverage

/-- Why a text could not be read. -/
inductive ParseError where
  /-- The text ended where something had to stand. -/
  | emptyInput
  /-- A bracket was not closed where it had to be. -/
  | bracketMismatch
  /-- A token stands where it cannot stand. -/
  | unexpected (token : String)
  /-- A name is not registered in a closed vocabulary. -/
  | undefined (token : String)
  /-- An implementation was declared before any interface. -/
  | strayImplementation
  deriving DecidableEq

/-- The text that reports why a text could not be read. -/
def ParseError.message : ParseError → String
  | emptyInput => "Empty parse."
  | bracketMismatch => "Mismatched bracket; expected ')'."
  | unexpected token => s!"Unexpected token '{token}'."
  | undefined token => s!"Type tag '{token}' is undefined."
  | strayImplementation => "Implementation declared before any interface."

namespace Surface

/-- What reading from some tokens gives. -/
inductive Parsed (α : Type) (tokens : List String) where
  /-- A value was read. -/
  | accepted (value : α) (rest : List String) (ahead : Bool)
      (shorter : rest.length < tokens.length)
  /-- Reading stopped at an error behind which some tokens are left. -/
  | rejected (cause : ParseError) (rest : List String)

namespace Parsed

/-- The value that was read, or the error. -/
def result {α : Type} {tokens : List String} : Parsed α tokens → Except ParseError α
  | accepted value _ _ _ => .ok value
  | rejected cause _ => .error cause

/-- The tokens that the source still holds: a token of lookahead has been
taken from it. -/
def source {α : Type} {tokens : List String} : Parsed α tokens → List String
  | accepted _ rest ahead _ => if ahead then rest.tail else rest
  | rejected _ rest => rest

/-- The value that was read from all of the tokens, or the error. -/
def complete {α : Type} {tokens : List String} : Parsed α tokens → Except ParseError α
  | accepted value [] _ _ => .ok value
  | accepted _ (token :: _) _ _ => .error (.unexpected token)
  | rejected cause _ => .error cause

end Parsed

mutual

/-- Read a tag. -/
def parseTag (v : Vocabulary) (tokens : List String) : Parsed Tag tokens :=
  match tokens with
  | [] => .rejected .emptyInput []
  | token :: rest =>
    if isReserved token || isEmptySign token then .rejected (.unexpected token) rest
    else
      match v.name? token with
      | none => .rejected (.undefined token) rest
      | some n =>
        match rest with
        | [] => .accepted (Tag.atom n) [] true (Nat.lt_succ_self _)
        | next :: inner =>
          if next = "(" then
            match parseArguments v inner with
            | .rejected cause rest => .rejected cause rest
            | .accepted ts rest ahead h =>
              .accepted (Tag.mk n ts) rest ahead (by simp only [List.length_cons]; omega)
          else .accepted (Tag.atom n) (next :: inner) true (Nat.lt_succ_self _)
termination_by (tokens.length, 0)
decreasing_by
  refine Prod.Lex.left _ _ ?_
  simp only [List.length_cons]
  omega

/-- Read the arguments of a tag up to the closing bracket. -/
def parseArguments (v : Vocabulary) (tokens : List String) : Parsed (List Tag) tokens :=
  match parseTag v tokens with
  | .rejected cause rest => .rejected cause rest
  | .accepted _ [] _ _ => .rejected .bracketMismatch []
  | .accepted t (next :: more) _ h =>
    if next = "," then
      match parseArguments v more with
      | .rejected cause rest => .rejected cause rest
      | .accepted ts rest ahead h' =>
        .accepted (t :: ts) rest ahead (by simp only [List.length_cons] at h; omega)
    else if next = ")" then
      .accepted [t] more false (by simp only [List.length_cons] at h; omega)
    else .rejected .bracketMismatch more
termination_by (tokens.length, 1)
decreasing_by
  · exact Prod.Lex.right _ Nat.zero_lt_one
  · refine Prod.Lex.left _ _ ?_
    simp only [List.length_cons] at h
    omega

end

/-- Read one or more tags with bars between them. -/
def parseAlternatives (v : Vocabulary) (tokens : List String) : Parsed (List Tag) tokens :=
  match parseTag v tokens with
  | .rejected cause rest => .rejected cause rest
  | .accepted t [] _ h => .accepted [t] [] true h
  | .accepted t (next :: more) _ h =>
    if next = "|" then
      match parseAlternatives v more with
      | .rejected cause rest => .rejected cause rest
      | .accepted ts rest ahead h' =>
        .accepted (t :: ts) rest ahead (by simp only [List.length_cons] at h; omega)
    else .accepted [t] (next :: more) true h
termination_by tokens.length
decreasing_by
  simp only [List.length_cons] at h
  omega

/-- Read a set. -/
def parseSet (v : Vocabulary) (tokens : List String) : Parsed TypeSet tokens :=
  match tokens with
  | [] => .rejected .emptyInput []
  | token :: rest =>
    if isEmptySign token then .accepted ∅ rest false (Nat.lt_succ_self _)
    else
      match parseAlternatives v (token :: rest) with
      | .rejected cause rest => .rejected cause rest
      | .accepted ts rest ahead h => .accepted (Ascending.ofList ts) rest ahead h

/-- Read the parameters of a signature up to the closing bracket. -/
def parseParameters (v : Vocabulary) (tokens : List String) : Parsed (List TypeSet) tokens :=
  match parseSet v tokens with
  | .rejected cause rest => .rejected cause rest
  | .accepted _ [] _ _ => .rejected .bracketMismatch []
  | .accepted p (next :: more) _ h =>
    if next = "," then
      match parseParameters v more with
      | .rejected cause rest => .rejected cause rest
      | .accepted ps rest ahead h' =>
        .accepted (p :: ps) rest ahead (by simp only [List.length_cons] at h; omega)
    else if next = ")" then
      .accepted [p] more false (by simp only [List.length_cons] at h; omega)
    else .rejected .bracketMismatch more
termination_by tokens.length
decreasing_by
  simp only [List.length_cons] at h
  omega

/-- Read a signature. -/
def parseSignature (v : Vocabulary) (tokens : List String) : Parsed Signature tokens :=
  match tokens with
  | [] => .rejected .emptyInput []
  | token :: inner =>
    if token ≠ "(" then .rejected (.unexpected token) inner
    else
      match inner with
      | [] => .rejected .emptyInput []
      | next :: rest =>
        if next = ")" then .accepted ⟨[]⟩ rest false (by simp only [List.length_cons]; omega)
        else
          match parseParameters v (next :: rest) with
          | .rejected cause rest => .rejected cause rest
          | .accepted ps rest ahead h =>
            .accepted ⟨ps⟩ rest ahead (Nat.lt_succ_of_lt h)

end Surface

namespace Vocabulary

/-- Read a tag from a text. -/
def readTag (v : Vocabulary) (text : String) : Except ParseError Tag :=
  (Surface.parseTag v (Surface.tokenize text)).complete

/-- Read a set from a text. -/
def readSet (v : Vocabulary) (text : String) : Except ParseError TypeSet :=
  (Surface.parseSet v (Surface.tokenize text)).complete

/-- Read a signature from a text. -/
def readSignature (v : Vocabulary) (text : String) : Except ParseError Signature :=
  (Surface.parseSignature v (Surface.tokenize text)).complete

end Vocabulary

end DispatchCoverage

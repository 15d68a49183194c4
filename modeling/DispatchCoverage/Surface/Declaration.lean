import DispatchCoverage.Solver
import DispatchCoverage.Surface.Parse
import DispatchCoverage.Text.Lines

/-!
# Declarations

Interfaces and implementations are declared one per line. A line that begins
with the word `interface` declares an interface, with an optional name in front
of its signature; a line that begins with `implementation` or `impl` declares
an implementation of the latest interface. What follows a number sign is a
comment, and lines without anything else are passed over.
-/

namespace DispatchCoverage

/-- An interface together with the implementations declared for it. -/
structure Declaration where
  /-- The name of the interface, if it has one. -/
  name : Option Name
  /-- The signature of the interface. -/
  interface : Signature
  /-- The signatures of its implementations, in order. -/
  implementations : List Signature

/-- A line of a list of declarations could not be read. -/
structure DeclarationError where
  /-- The number of the line, from 1. -/
  lineNumber : Nat
  /-- The line without comment and without blanks at its ends. -/
  line : String
  /-- What is wrong with the line. -/
  cause : ParseError

/-- The text that reports a line that could not be read. -/
def DeclarationError.message (e : DeclarationError) : String :=
  s!"Line {e.lineNumber}: `{e.line}`\n\t{e.cause.message}"

/-- Why declarations that are given as a value of any kind could not be
read. -/
inductive ListingError where
  /-- A line could not be read. -/
  | line (cause : DeclarationError)
  /-- A line is no text. -/
  | notALine
  /-- The value is neither a text nor can it be listed. -/
  | notListable

namespace Surface

/-- A line without its comment and without blanks at its ends. -/
def statement (line : List Char) : List Char :=
  Text.trim Text.isBlank (line.takeWhile (· ≠ '#'))

/-- The word at the beginning of a statement, up to the first space. -/
def keyword (statement : List Char) : String :=
  String.ofList (statement.takeWhile (· ≠ ' '))

/-- What stands behind the first space of a statement. -/
def operand (statement : List Char) : String :=
  String.ofList ((statement.dropWhile (· ≠ ' ')).drop 1)

/-- Read the operand of an interface line: an optional name, which may touch
the bracket behind it, and a signature. -/
def readInterface (v : Vocabulary) (text : String) : Except ParseError Declaration :=
  let tokens := tokenize text
  match tokens with
  | [] => .error .emptyInput
  | token :: rest =>
    if token == "(" then
      (parseSignature v tokens).complete.map fun s => ⟨none, s, []⟩
    else if isReserved token || isEmptySign token then .error (.unexpected token)
    else (parseSignature v rest).complete.map fun s => ⟨Name.ofString? token, s, []⟩

/-- Take one statement into the declarations read so far, the latest first. -/
def addStatement (v : Vocabulary) (declared : List Declaration) (statement : List Char) :
    Except ParseError (List Declaration) :=
  let word := keyword statement
  if word == "interface" then
    (readInterface v (operand statement)).map (· :: declared)
  else if word == "implementation" || word == "impl" then
    match declared with
    | [] => .error .strayImplementation
    | latest :: earlier =>
      (v.readSignature (operand statement)).map fun s =>
        { latest with implementations := latest.implementations ++ [s] } :: earlier
  else .error (.unexpected word)

/-- Take lines into the declarations read so far, the latest first, counting
lines from a number. -/
def addLines (v : Vocabulary) :
    Nat → List Declaration → List (List Char) → Except DeclarationError (List Declaration)
  | _, declared, [] => .ok declared
  | number, declared, line :: rest =>
    let s := statement line
    if s.isEmpty then addLines v (number + 1) declared rest
    else
      match addStatement v declared s with
      | .ok declared => addLines v (number + 1) declared rest
      | .error cause => .error ⟨number, String.ofList s, cause⟩

end Surface

/-- The texts in front of the first value that is none. -/
def Value.leadingTexts : List Value → List String
  | .str s :: vs => s :: leadingTexts vs
  | _ => []

namespace Vocabulary

/-- Read declarations from lines. -/
def readLines (v : Vocabulary) (lines : List String) : Except DeclarationError (List Declaration) :=
  (Surface.addLines v 1 [] (lines.map String.toList)).map List.reverse

/-- Read declarations from a text. -/
def readDeclarations (v : Vocabulary) (text : String) :
    Except DeclarationError (List Declaration) :=
  (Surface.addLines v 1 [] (Text.lines text.toList)).map List.reverse

/-- Read declarations from a text, or from lines one after the other. A line that
is no text is noticed when it is reached. -/
def readListing (v : Vocabulary) : Value → Except ListingError (List Declaration)
  | .str s => (v.readDeclarations s).mapError .line
  | x =>
    match x.items? with
    | none => .error .notListable
    | some vs => do
      let lines := Value.leadingTexts vs
      let declared ← (v.readLines lines).mapError .line
      if lines.length = vs.length then return declared else throw .notALine

end Vocabulary

/-- The parts of a declared interface that none of its implementations
accepts. -/
def Declaration.check (d : Declaration) (budget : Option RoundBudget := none)
    (strict : Bool := true) : Outcome :=
  (Solver.mk d.implementations budget strict 0).solve d.interface

end DispatchCoverage

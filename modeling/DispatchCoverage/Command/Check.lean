import DispatchCoverage.Command.Storage
import DispatchCoverage.Command.Switch
import DispatchCoverage.Graph.Coverage
import DispatchCoverage.Report

/-!
# The check command

The command reads declarations from a switch and from files, checks them one
after another, and writes a report or a coverage graph. It ends with status 0
if every interface is complete, 1 if some interface is not, and 2 if the input
could not be read or a check ended without a result. Output that cannot be
written, input that is no UTF-8, and paths that can be none end the program
without a status.
-/

namespace DispatchCoverage.Command

/-- What a run writes. -/
inductive Page where
  /-- How the program is used. -/
  | usage
  /-- A text. -/
  | text (content : String)
  /-- A graph in a serial form. -/
  | graph (content : Graph) (format : Format)

/-- A text as it is printed, where the last line is always ended. -/
def printed (content : String) : String :=
  if content.endsWith "\n" then content else content ++ "\n"

/-- How a run ends. -/
inductive Ending where
  /-- With a status. -/
  | exit (status : Nat)
  /-- Because an input file is no UTF-8. -/
  | undecodable
  /-- Because the serial form cannot express the graph. -/
  | inexpressible
  /-- Because a file cannot be opened. -/
  | unopened (cause : FileError)

/-- The outcome of a run. -/
structure Run where
  /-- How the run ends. -/
  ending : Ending
  /-- What is written to standard output, if anything. -/
  output : Option Page := none
  /-- The lines written to standard error. -/
  errors : List String := []
  /-- The file written, with its content. -/
  written : Option (String × Page) := none

/-- What the check command is asked for. -/
structure CheckRequest where
  /-- The interface given by a switch, if it is not empty. -/
  interface : Option String
  /-- The implementations given by switches. -/
  implementations : List String
  /-- The serial form of the outcome; none for the text report. -/
  format : Option Format
  /-- The file to write the outcome to. -/
  output : Option String
  /-- The greatest number of rounds. -/
  budget : Option RoundBudget
  /-- Whether internal inconsistencies are errors. -/
  strict : Bool
  /-- The files with declarations, in order. -/
  paths : List String

/-- Why declarations could not be read. -/
inductive LoadError where
  /-- A signature given by a switch. -/
  | signature (cause : ParseError)
  /-- A line of a file. -/
  | line (cause : DeclarationError)
  /-- A file. -/
  | file (cause : FileError)
  /-- The encoding of a file. -/
  | encoding

/-- A line of the log. -/
def logLine (level logger message : String) : String := s!"{level} {logger}: {message}"

/-- The lines of the log on some events. Without further notice only warnings
are logged. -/
def eventLines (verbose : Bool) (events : List Event) : List String :=
  (events.filter (fun e => verbose || e.level == "WARNING")).map fun e =>
    logLine e.level "patchk.solver" e.message

/-- The declaration given by switches. -/
def declarationOf (interface : String) (implementations : List String) :
    Except ParseError Declaration := do
  let v : Vocabulary := {}
  let s ← v.readSignature interface
  let is ← implementations.mapM v.readSignature
  return ⟨none, s, is⟩

/-- Read the declarations of one file. -/
def loadFile (storage : Storage) (path : String) : Except LoadError (List Declaration) := do
  let bytes ← (storage.read path).mapError .file
  match decode? bytes with
  | none => .error .encoding
  | some text => ((Surface.addLines {} 1 [] (Text.lines text)).map List.reverse).mapError .line

/-- Read the declarations of several files, one after the other. -/
def loadFiles (storage : Storage) (verbose : Bool) :
    List String → List String × Except LoadError (List Declaration)
  | [] => ([], .ok [])
  | path :: paths =>
    let notice :=
      if verbose then [logLine "DEBUG" "patchk.util.cli" s!"Reading declarations from {path}"]
      else []
    match loadFile storage path with
    | .error e => (notice, .error e)
    | .ok declared =>
      let (lines, rest) := loadFiles storage verbose paths
      (notice ++ lines, rest.map (declared ++ ·))

/-- Read all declarations, those given by switches first. -/
def load (storage : Storage) (verbose : Bool) (r : CheckRequest) :
    List String × Except LoadError (List Declaration) :=
  match r.interface with
  | none => loadFiles storage verbose r.paths
  | some interface =>
    match declarationOf interface r.implementations with
    | .error e => ([], .error (.signature e))
    | .ok d =>
      let (lines, rest) := loadFiles storage verbose r.paths
      (lines, rest.map (d :: ·))

/-- Check declarations one after the other, up to the first without a
result. -/
def checkAll (verbose : Bool) (r : CheckRequest) : List Declaration →
    List String × Except (Declaration × SolverError) (List (Declaration × SignatureSet))
  | [] => ([], .ok [])
  | d :: rest =>
    let outcome := d.check r.budget r.strict
    let lines := eventLines verbose outcome.events
    match outcome.result with
    | .error e => (lines, .error (d, e))
    | .ok leaves =>
      let (later, results) := checkAll verbose r rest
      (lines ++ later, results.map ((d, leaves) :: ·))

/-- The coverage graph of some checks. -/
def graphOf (results : List (Declaration × SignatureSet)) : Graph :=
  (results.foldl (fun (g : CoverageGraph) (d, leaves) =>
    (g.addCheck d.interface d.implementations leaves.toList d.name).2) {}).graph

/-- How an error refers to a declaration: by its name, or else by its
interface. -/
def mention (d : Declaration) : String :=
  match d.name with
  | some n => n.text
  | none => toString d.interface

/-- Write a page to the file asked for, or to standard output. -/
def deliver (storage : Storage) (r : CheckRequest) (errors : List String) (page : Page)
    (status : Nat) : Run :=
  match r.output with
  | none => { ending := .exit status, output := some page, errors }
  | some path =>
    match storage.checkWritable path with
    | .error e => { ending := .unopened e, errors }
    | .ok () => { ending := .exit status, errors, written := some (path, page) }

/-- Write the outcome of the checks. -/
def conclude (storage : Storage) (r : CheckRequest) (errors : List String)
    (results : List (Declaration × SignatureSet)) : Run :=
  let status := if results.all (fun (_, leaves) => leaves.isEmpty) then 0 else 1
  match r.format with
  | none => deliver storage r errors (.text (Report.text results)) status
  | some format =>
    let g := graphOf results
    if g.expressible format then deliver storage r errors (.graph g format) status
    else { ending := .inexpressible, errors }

/-- A run that ends with status 2 and a report on standard error. -/
def failure (errors : List String) (heading message : String) : Run :=
  { ending := .exit 2, errors := errors ++ [heading ++ "\n\t" ++ message] }

/-- Run the check command. -/
def check (storage : Storage) (verbose : Bool) (r : CheckRequest) : Run :=
  if r.interface.isNone && r.paths.isEmpty then
    { ending := .exit 2, errors := ["Error: missing interface or declaration file"] }
  else
    match load storage verbose r with
    | (lines, .error (.signature e)) => failure lines "Error:" e.message
    | (lines, .error (.line e)) => failure lines "Error:" e.message
    | (lines, .error (.file .nullCharacter)) =>
      { ending := .unopened .nullCharacter, errors := lines }
    | (lines, .error (.file e)) => failure lines "Error:" e.message
    | (lines, .error .encoding) => { ending := .undecodable, errors := lines }
    | (lines, .ok declarations) =>
      match checkAll verbose r declarations with
      | (later, .error (d, e)) => failure (lines ++ later) s!"Error in {mention d}:" e.message
      | (later, .ok results) => conclude storage r (lines ++ later) results

end DispatchCoverage.Command

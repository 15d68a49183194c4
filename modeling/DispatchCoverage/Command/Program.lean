import DispatchCoverage.Command.Check
import DispatchCoverage.Command.Completion

/-!
# The program

The program reads its arguments, finds its command and runs it. Help, version
and completion scripts come before everything else, in this order; an argument
in front of the command that is no switch is taken for an unknown command.
-/

namespace DispatchCoverage.Command

/-- What the arguments ask for. -/
inductive Request where
  /-- Show how the program is used. -/
  | usage (error : Option SwitchError) (status : Nat)
  /-- Show the version of the program or of a command. -/
  | version (name : String)
  /-- Print the completion script for a shell; a command has none. -/
  | completion (shell : Option Shell)
  /-- A command that does not exist. -/
  | unknownCommand (name : String)
  /-- The check command. -/
  | check (verbose : Bool) (request : CheckRequest)

/-- A text, unless it is empty. -/
def unlessEmpty (text : String) : Option String := if text.isEmpty then none else some text

/-- The request for a check that its arguments state. -/
def checkRequest (a : Arguments) : CheckRequest where
  interface := (a.value? .interface).bind unlessEmpty
  implementations := a.values .implementation
  format := ((a.value? .form).bind Switch.formNamed?).join
  output := (a.value? .output).bind unlessEmpty
  budget := (a.value? .maxRounds).bind Switch.budget?
  strict := !a.has .lenient
  paths := a.operands

/-- What the arguments behind the check command ask for. -/
def readCheck (verbose : Bool) (argv : List String) : Request :=
  match readArguments Switch.checkTable [] (argv.map String.toList) {} with
  | .error e => .usage (some e) 2
  | .ok a =>
    if a.has .help || a.has .helpAll then .usage none 0
    else if a.has .version then .version (programName ++ " check")
    else if a.has .completions then .completion none
    else if a.has .implementation && !a.has .interface then .usage (some .needsInterface) 2
    else .check verbose (checkRequest a)

/-- What the arguments of the program ask for. -/
def readRequest (argv : List String) : Request :=
  match readArguments Switch.programTable commandNames (argv.map String.toList) {} with
  | .error e => .usage (some e) 2
  | .ok a =>
    if a.has .help || a.has .helpAll then .usage none 0
    else if a.has .version then .version programName
    else
      match (a.value? .completions).bind Shell.ofName?, a.operands, a.command with
      | some shell, _, _ => .completion shell
      | none, name :: _, _ => .unknownCommand name
      | none, [], none => .usage none 1
      | none, [], some argv => readCheck (a.has .verbose) argv

/-- Carry out what the arguments ask for. -/
def Request.run (storage : Storage) : Request → Run
  | .usage _ status => { ending := .exit status, output := some .usage }
  | .version name => { ending := .exit 0, output := some (.text (name ++ " (version not set)")) }
  | .completion shell =>
    { ending := .exit 0, output := some (.text ((shell.map completionScript).getD noCompletion)) }
  | .unknownCommand name => { ending := .exit 1, errors := ["Unknown command " ++ name] }
  | .check verbose request => Command.check storage verbose request

/-- Run the program with its arguments. -/
def run (storage : Storage) (argv : List String) : Run := (readRequest argv).run storage

end DispatchCoverage.Command

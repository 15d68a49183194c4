import DispatchCoverage.Graph.Serial
import DispatchCoverage.Solver
import DispatchCoverage.Text.Integer

/-!
# Switches of the command line

Switches and operands may stand in any order. A long switch takes its value
behind an equals sign or from the next argument, and must not have the sign if
it takes no value; a short one takes its value from the rest of its argument or
from the next one; short switches without a value may share an argument. Two
hyphens end the switches. In front of its command the program knows the switches
that concern all commands; behind it the command has its own.
-/

namespace DispatchCoverage.Command

/-- The shells that a completion script can be written for. -/
inductive Shell where
  /-- The Bourne-again shell. -/
  | bash
  /-- The friendly interactive shell. -/
  | fish
  /-- The Z shell. -/
  | zsh
  deriving DecidableEq

/-- A name without the distinction of capital letters. -/
def folded (name : String) : String := String.ofList (name.toList.map Char.toLower)

namespace Shell

/-- The name of a shell. -/
def name : Shell → String
  | bash => "bash"
  | fish => "fish"
  | zsh => "zsh"

/-- The shell with a name, in which capitals do not matter. -/
def ofName? (text : String) : Option Shell :=
  [bash, fish, zsh].find? fun shell => shell.name == folded text

/-- Every shell is found by its name. -/
theorem ofName?_name (shell : Shell) : ofName? shell.name = some shell := by
  cases shell <;> decide

end Shell

/-- The switches. -/
inductive Switch where
  /-- Show how the command is used. -/
  | help
  /-- Show the same for all commands. -/
  | helpAll
  /-- Show the version. -/
  | version
  /-- Print a completion script for a shell. -/
  | completions
  /-- Log the progress of the analysis. -/
  | verbose
  /-- Check this interface signature. -/
  | interface
  /-- An implementation signature of that interface. -/
  | implementation
  /-- The form of the outcome. -/
  | form
  /-- The file to write the outcome to. -/
  | output
  /-- The greatest number of rounds. -/
  | maxRounds
  /-- Report internal inconsistencies as unimplemented signatures. -/
  | lenient
  deriving DecidableEq

namespace Switch

/-- Whether a switch takes a value. -/
def takesValue : Switch → Bool
  | completions => true
  | interface => true
  | implementation => true
  | form => true
  | output => true
  | maxRounds => true
  | _ => false

/-- Whether a switch may be given several times. -/
def isRepeatable : Switch → Bool
  | implementation => true
  | _ => false

/-- The names of the switches in front of a command. -/
def programTable : List (String × Switch) :=
  [("help-all", helpAll), ("h", help), ("help", help), ("v", verbose), ("version", version),
    ("completions", completions), ("verbose", verbose)]

/-- The names of the switches of the check command. -/
def checkTable : List (String × Switch) :=
  [("help-all", helpAll), ("h", help), ("help", help), ("v", version), ("version", version),
    ("completions", completions), ("i", interface), ("interface", interface),
    ("m", implementation), ("implementation", implementation), ("t", form), ("to", form),
    ("o", output), ("output", output), ("max-rounds", maxRounds), ("lenient", lenient)]

/-- A name of a switch as it is given: with one hyphen if it is a letter, and
with two if it is a word. -/
def spelled (name : String) : String := if name.length = 1 then "-" ++ name else "--" ++ name

/-- The forms that the outcome may take; none is the text report. -/
def formNamed? (name : String) : Option (Option Format) :=
  if folded name = "text" then some none else (Format.ofName? (folded name)).map some

/-- The greatest number of rounds that can be asked for. -/
def greatestRounds : Int := 9223372036854775807

/-- The budget that a text asks for. -/
def budget? (text : String) : Option RoundBudget :=
  (Text.integer? text.toList).bind fun rounds =>
    if rounds ≤ greatestRounds then RoundBudget.ofInt? rounds else none

/-- Whether a value is of the kind that a switch takes. -/
def accepts (switch : Switch) (value : String) : Bool :=
  match switch with
  | completions => (Shell.ofName? value).isSome
  | form => (formNamed? value).isSome
  | maxRounds => (budget? value).isSome
  | _ => true

end Switch

/-- Why the switches could not be read. -/
inductive SwitchError where
  /-- A switch is not known. -/
  | unknown (switch : String)
  /-- The value of a switch is missing. -/
  | missingValue (switch : String)
  /-- A switch that takes no value was given one. -/
  | needlessValue (switch : String)
  /-- The value of a switch is not of the kind that it takes. -/
  | wrongValue (switch value : String)
  /-- A switch was given twice. -/
  | repeated (switch : String)
  /-- Implementations were given without an interface. -/
  | needsInterface

/-- The text that reports why the switches could not be read. -/
def SwitchError.message : SwitchError → String
  | unknown switch => s!"Unknown switch {switch}"
  | missingValue switch => s!"Switch {switch} requires an argument"
  | needlessValue switch => s!"Switch {switch} takes no argument"
  | wrongValue switch value => s!"Argument of {switch} is not suitable: {value}"
  | repeated switch => s!"Switch {switch} already given"
  | needsInterface => "Given -m, the following are missing: -i"

/-- The switches and operands of an argument list. -/
structure Arguments where
  /-- The switches with their values, in order. -/
  switches : List (Switch × String) := []
  /-- The other arguments, in order. -/
  operands : List String := []
  /-- What stands behind the command, if one was met. -/
  command : Option (List String) := none

namespace Arguments

/-- Whether a switch was given. -/
def has (a : Arguments) (switch : Switch) : Bool := a.switches.any (fun s => s.1 == switch)

/-- The value of a switch. -/
def value? (a : Arguments) (switch : Switch) : Option String :=
  (a.switches.find? (fun s => s.1 == switch)).map Prod.snd

/-- The values of a switch that may be repeated, in order. -/
def values (a : Arguments) (switch : Switch) : List String :=
  (a.switches.filter (fun s => s.1 == switch)).map Prod.snd

/-- Take a switch with its value. -/
def addSwitch (a : Arguments) (switch : Switch) (shown value : String) :
    Except SwitchError Arguments :=
  if !switch.accepts value then .error (.wrongValue shown value)
  else if a.has switch && !switch.isRepeatable then .error (.repeated shown)
  else .ok { a with switches := a.switches ++ [(switch, value)] }

/-- Take an operand. -/
def addOperand (a : Arguments) (operand : List Char) : Arguments :=
  { a with operands := a.operands ++ [String.ofList operand] }

end Arguments

/-- The value of a long switch: what stands behind its equals sign, which may
also begin the next argument, or the next argument itself; and how many of the
next arguments that takes. -/
def longValue? : Option (List Char) → List (List Char) → Option (List Char × Nat)
  | some (c :: value), _ => some (c :: value, 0)
  | some [], next :: _ => some (next, 1)
  | some [], [] => none
  | none, ['='] :: next :: _ => some (next, 2)
  | none, ['='] :: [] => none
  | none, ('=' :: value) :: _ => some (value, 1)
  | none, next :: _ => some (next, 1)
  | none, [] => none

/-- The value of a short switch: the rest of its argument, or the next
argument; and how many of the next arguments that takes. -/
def shortValue? : List Char → List (List Char) → Option (List Char × Nat)
  | c :: value, _ => some (c :: value, 0)
  | [], next :: _ => some (next, 1)
  | [], [] => none

/-- The number of characters and arguments that are left to read. -/
def weight : List (List Char) → Nat
  | [] => 0
  | arg :: argv => arg.length + 1 + weight argv

/-- Leaving out arguments leaves no more to read. -/
theorem weight_drop_le (n : Nat) (argv : List (List Char)) :
    weight (argv.drop n) ≤ weight argv := by
  induction argv generalizing n with
  | nil => simp
  | cons a rest ih =>
    cases n with
    | zero => exact Nat.le_refl _
    | succ n =>
      have := ih n
      simp only [List.drop_succ_cons, weight]
      omega

/-- Read arguments up to the first that names a command. -/
def readArguments (table : List (String × Switch)) (commands : List String) :
    List (List Char) → Arguments → Except SwitchError Arguments
  | [], a => .ok a
  | arg :: argv, a =>
    if commands.contains (String.ofList arg) then
      .ok { a with command := some (argv.map String.ofList) }
    else
      match arg with
      | ['-', '-'] => .ok { a with operands := a.operands ++ argv.map String.ofList }
      | '-' :: '-' :: long =>
        let name := String.ofList (long.takeWhile (· ≠ '='))
        let shown := "--" ++ name
        let inline := long.dropWhile (· ≠ '=')
        match table.find? (fun entry => entry.1 == name) with
        | none => .error (.unknown shown)
        | some (_, switch) =>
          if switch.takesValue then
            match longValue? (if inline.isEmpty then none else some inline.tail) argv with
            | none => .error (.missingValue shown)
            | some (value, taken) => do
              let a ← a.addSwitch switch shown (String.ofList value)
              readArguments table commands (argv.drop taken) a
          else if inline.isEmpty then do
            let a ← a.addSwitch switch shown ""
            readArguments table commands argv a
          else .error (.needlessValue shown)
      | '-' :: c :: rest =>
        let shown := String.ofList ['-', c]
        match table.find? (fun entry => entry.1 == c.toString) with
        | none => .error (.unknown shown)
        | some (_, switch) =>
          if switch.takesValue then
            match shortValue? rest argv with
            | none => .error (.missingValue shown)
            | some (value, taken) => do
              let a ← a.addSwitch switch shown (String.ofList value)
              readArguments table commands (argv.drop taken) a
          else do
            let a ← a.addSwitch switch shown ""
            if rest.isEmpty then readArguments table commands argv a
            else readArguments table commands (('-' :: rest) :: argv) a
      | ['-'] => .error (.unknown "-")
      | operand => readArguments table commands argv (a.addOperand operand)
termination_by argv => weight argv
decreasing_by
  all_goals
    have hd := fun n => weight_drop_le n argv
    simp only [weight, List.length_cons]
  · have := hd taken
    omega
  · omega
  · have := hd taken
    omega
  · omega
  · omega
  · omega

end DispatchCoverage.Command

import DispatchCoverage.Command.Switch

/-!
# Completion scripts

A completion script makes a shell complete the switches and the command of the
program. It lists the names of the switches that are read in front of the
command, in the order of their table.
-/

namespace DispatchCoverage.Command

/-- The name of the program. -/
def programName : String := "patchk"

/-- The commands of the program. -/
def commandNames : List String := ["check"]

/-- The names in a table of switches, as they are given. -/
def spelledNames (table : List (String × Switch)) : List String :=
  table.map fun entry => Switch.spelled entry.1

/-- The names of the switches that take a value. -/
def valueNames (table : List (String × Switch)) : List String :=
  spelledNames (table.filter fun entry => entry.2.takesValue)

/-- Every name listed as one that takes a value is listed as a name. -/
theorem mem_spelledNames_of_mem_valueNames {table : List (String × Switch)} {name : String}
    (h : name ∈ valueNames table) : name ∈ spelledNames table := by
  simp only [valueNames, spelledNames, List.mem_map, List.mem_filter] at h ⊢
  obtain ⟨entry, ⟨hm, _⟩, rfl⟩ := h
  exact ⟨entry, hm, rfl⟩

/-- The script for the first shell: a function that offers the switches behind a
hyphen and the commands elsewhere. -/
def bashScript (table : List (String × Switch)) : List String :=
  ["# Bash completion for " ++ programName,
    "# Generated by plumbum.cli.Application",
    "",
    "_" ++ programName ++ "_completion() \x7b",
    "    local cur=\"$\x7bCOMP_WORDS[COMP_CWORD]\x7d\"",
    "    local prev=\"$\x7bCOMP_WORDS[COMP_CWORD-1]\x7d\"",
    "    local words=\"$\x7bCOMP_WORDS[@]\x7d\"",
    "",
    "    COMPREPLY=()",
    "",
    "    # Static completions for switches and subcommands",
    "    local switches=\"" ++ " ".intercalate (spelledNames table) ++ "\"",
    "    local subcommands=\"" ++ " ".intercalate commandNames ++ "\"",
    "",
    "    # If previous word is a switch that takes an argument, let the app handle it",
    "    case \"$prev\" in",
    "        " ++ "|".intercalate (valueNames table) ++ ")",
    "            COMPREPLY=( $(compgen -W \"$(" ++ programName ++
      " --complete $cur 2>/dev/null)\" -- \"$cur\") )",
    "            return",
    "            ;;",
    "        *)",
    "            ;;",
    "    esac",
    "",
    "    # Complete switches and subcommands",
    "    if [[ \"$cur\" == -* ]]; then",
    "        COMPREPLY=( $(compgen -W \"$switches\" -- \"$cur\") )",
    "    else",
    "        COMPREPLY=( $(compgen -W \"$subcommands\" -- \"$cur\") )",
    "    fi",
    "\x7d",
    "",
    "complete -F _" ++ programName ++ "_completion " ++ programName,
    "",
    ""]

/-- The line of the second script that offers a switch. -/
def fishSwitch (entry : String × Switch) : String :=
  "complete -c " ++ programName ++ (if entry.1.length = 1 then " -s " else " -l ") ++ entry.1 ++
    (if entry.2.takesValue then " -r" else "")

/-- The script for the second shell: a line for every switch and command. -/
def fishScript (table : List (String × Switch)) : List String :=
  ["# Fish completion for " ++ programName,
    "# Generated by plumbum.cli.Application",
    "",
    "complete -c " ++ programName ++ " -f",
    "",
    "# Switches"] ++ table.map fishSwitch ++
  ["",
    "# Subcommands"] ++ commandNames.map (fun name =>
      "complete -c " ++ programName ++ " -n \"__fish_use_subcommand\" -a \"" ++ name ++ "\"") ++
  ["",
    ""]

/-- The script for the third shell: a function that describes the switches and
the commands. -/
def zshScript (table : List (String × Switch)) : List String :=
  ["#compdef " ++ programName,
    "# Zsh completion for " ++ programName,
    "# Generated by plumbum.cli.Application",
    "",
    "_" ++ programName ++ "() \x7b",
    "    local -a switches subcommands",
    "    switches=(" ++ " ".intercalate (spelledNames table) ++ ")",
    "    subcommands=(" ++ " ".intercalate commandNames ++ ")",
    "",
    "    if [[ \"$words[CURRENT]\" == -* ]]; then",
    "        compadd -a switches",
    "    else",
    "        compadd -a subcommands",
    "    fi",
    "\x7d",
    "",
    "_" ++ programName ++ " \"$@\"",
    "",
    ""]

/-- The completion script for a shell. -/
def completionScript (shell : Shell) : String :=
  "\n".intercalate <| match shell with
    | .bash => bashScript Switch.programTable
    | .fish => fishScript Switch.programTable
    | .zsh => zshScript Switch.programTable

/-- What a command answers in the place of a script. -/
def noCompletion : String := "Shell completion must be generated from the root application"

end DispatchCoverage.Command

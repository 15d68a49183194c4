import DispatchCoverage.Text.Blank
import DispatchCoverage.Text.Part

/-!
# Tokens

A text breaks up into separators, which stand for themselves, and the longest
runs of characters that are neither separators nor blank. Blank characters
only separate. The sign of the empty set may be written `_|_`, which is set
apart before the text is broken up.
-/

namespace DispatchCoverage.Surface

/-- The characters that stand for themselves. -/
def separators : String := "(),|"

/-- A text with the sign of the empty set, set apart by spaces, in place of
each `_|_` from left to right. -/
def setApart : List Char → List Char
  | [] => []
  | '_' :: '|' :: '_' :: rest => ' ' :: '⊥' :: ' ' :: setApart rest
  | c :: rest => c :: setApart rest

/-- Put a run of characters in front of some tokens, unless it is empty. -/
def closeRun (run : List Char) (tokens : List (List Char)) : List (List Char) :=
  if run.isEmpty then tokens else run :: tokens

/-- The run of characters that a text begins with, and the tokens behind it. -/
def scan (specials : List Char) : List Char → List Char × List (List Char)
  | [] => ([], [])
  | c :: rest =>
    let (run, tokens) := scan specials rest
    if Text.isBlank c then ([], closeRun run tokens)
    else if specials.contains c then ([], [c] :: closeRun run tokens)
    else (c :: run, tokens)

/-- The tokens of a text, where some characters stand for themselves. -/
def tokenize (text : String) (specials : String := separators) : List String :=
  let (run, tokens) := scan specials.toList (setApart text.toList)
  (closeRun run tokens).map String.ofList

/-- Whether a token is a part of the list of separators, as the empty token
and every single separator are. Such a token is no name. -/
def isReserved (token : String) : Bool := Text.occursIn token.toList separators.toList

/-- Whether a token is one of the two signs of the empty set. -/
def isEmptySign (token : String) : Bool := token == "⊥" || token == "_|_"

end DispatchCoverage.Surface

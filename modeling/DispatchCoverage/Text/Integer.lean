import DispatchCoverage.Text.Blank

/-!
# Integers in a text

An integer is written as decimal digits with an optional sign, possibly with
white space around it and with single underscores between digits. The digits of
every script count; the table lists the digit zero of each script in Unicode
14, behind which its other nine digits follow. There must not be more digits
than a limit, where zeros in front count as well.
-/

namespace DispatchCoverage.Text

/-- The code points of the digits zero, in ascending order. -/
def zeros : List Nat :=
  [0x30, 0x660, 0x6F0, 0x7C0, 0x966, 0x9E6, 0xA66, 0xAE6, 0xB66, 0xBE6, 0xC66, 0xCE6, 0xD66,
    0xDE6, 0xE50, 0xED0, 0xF20, 0x1040, 0x1090, 0x17E0, 0x1810, 0x1946, 0x19D0, 0x1A80, 0x1A90,
    0x1B50, 0x1BB0, 0x1C40, 0x1C50, 0xA620, 0xA8D0, 0xA900, 0xA9D0, 0xA9F0, 0xAA50, 0xABF0,
    0xFF10, 0x104A0, 0x10D30, 0x11066, 0x110F0, 0x11136, 0x111D0, 0x112F0, 0x11450, 0x114D0,
    0x11650, 0x116C0, 0x11730, 0x118E0, 0x11950, 0x11C50, 0x11D50, 0x11DA0, 0x16A60, 0x16AC0,
    0x16B50, 0x1D7CE, 0x1D7D8, 0x1D7E2, 0x1D7EC, 0x1D7F6, 0x1E140, 0x1E2F0, 0x1E950, 0x1FBF0]

/-- The value of a decimal digit. -/
def digit? (c : Char) : Option Nat :=
  (zeros.find? (fun z => z ≤ c.toNat && c.toNat < z + 10)).map (c.toNat - ·)

/-- Read digits with single underscores between them, behind a number read so
far and a digit. -/
def digitsBehind (n : Nat) : List Char → Option Nat
  | [] => some n
  | '_' :: c :: rest => (digit? c).bind fun d => digitsBehind (10 * n + d) rest
  | c :: rest => (digit? c).bind fun d => digitsBehind (10 * n + d) rest

/-- The greatest number of digits. -/
def digitLimit : Nat := 4300

/-- Whether a text has no more digits than the limit. -/
def isWithinDigitLimit (text : List Char) : Bool :=
  (text.filter (fun c => (digit? c).isSome)).length ≤ digitLimit

/-- Read a natural number. -/
def natural? : List Char → Option Nat
  | [] => none
  | c :: rest =>
    if isWithinDigitLimit (c :: rest) then (digit? c).bind fun d => digitsBehind d rest
    else none

/-- Read an integer. -/
def integer? (text : List Char) : Option Int :=
  match trim isWhite text with
  | '-' :: rest => (natural? rest).map fun n => -(n : Int)
  | '+' :: rest => (natural? rest).map fun n => (n : Int)
  | rest => (natural? rest).map fun n => (n : Int)

end DispatchCoverage.Text

import DispatchCoverage.Text.Printable

/-!
# Quoted text

A text is quoted between single quotes, or between double quotes if it holds
a single quote and no double quote. The quote in use and the backslash are
written behind a backslash, the tab and the line breaks CR and LF by their
letters, and every other character that is not printable by its code point.
-/

namespace DispatchCoverage.Text

/-- The lower-case hexadecimal form of a number, with leading zeros up to a
width. -/
def hex (width n : Nat) : List Char :=
  let digits := Nat.toDigits 16 n
  List.replicate (width - digits.length) '0' ++ digits

/-- The code point of a character behind the letter for its width. -/
def codePointEscape (c : Char) : List Char :=
  if c.toNat < 0x100 then '\\' :: 'x' :: hex 2 c.toNat
  else if c.toNat < 0x10000 then '\\' :: 'u' :: hex 4 c.toNat
  else '\\' :: 'U' :: hex 8 c.toNat

/-- The written form of one character between quotes. -/
def quotedChar (quote c : Char) : List Char :=
  if c = quote || c = '\\' then ['\\', c]
  else if c = '\t' then ['\\', 't']
  else if c = '\n' then ['\\', 'n']
  else if c = '\r' then ['\\', 'r']
  else if isPrintable c then [c]
  else codePointEscape c

/-- The quote that surrounds a text. -/
def quoteMark (cs : List Char) : Char :=
  if cs.contains '\'' && !cs.contains '"' then '"' else '\''

/-- A text between quotes. -/
def quoted (text : String) : String :=
  let cs := text.toList
  let quote := quoteMark cs
  String.ofList (quote :: cs.flatMap (quotedChar quote) ++ [quote])

/-- Quotes change with the quotes inside, and unprintable characters are
written by code point. -/
example : quoted "a" = "'a'" ∧ quoted "it's" = "\"it's\"" ∧ quoted "\u200b" = "'\\u200b'" := by
  decide +kernel

end DispatchCoverage.Text

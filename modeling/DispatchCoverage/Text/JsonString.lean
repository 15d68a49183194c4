import DispatchCoverage.Text.Quoted

/-!
# JSON strings

A text as a JSON string that keeps every character above U+001F except the
quotation mark and the backslash as it is. Control characters are written by
their short form where there is one, otherwise by code point.
-/

namespace DispatchCoverage.Text

/-- The written form of one character in a JSON string. -/
def jsonChar (c : Char) : List Char :=
  if c = '"' || c = '\\' then ['\\', c]
  else if c = '\n' then ['\\', 'n']
  else if c = '\r' then ['\\', 'r']
  else if c = '\t' then ['\\', 't']
  else if c.toNat = 0x08 then ['\\', 'b']
  else if c.toNat = 0x0C then ['\\', 'f']
  else if c.toNat < 0x20 then '\\' :: 'u' :: hex 4 c.toNat
  else [c]

/-- A text as a JSON string. -/
def jsonString (text : String) : String :=
  String.ofList ('"' :: text.toList.flatMap jsonChar ++ ['"'])

end DispatchCoverage.Text

/-!
# Parts of a text

A text occurs in another if some characters in front of it and some behind it
make up the other one.
-/

namespace DispatchCoverage.Text

/-- Whether a text occurs in another. -/
def occursIn (part : List Char) : List Char → Bool
  | [] => part.isEmpty
  | c :: rest => part.isPrefixOf (c :: rest) || occursIn part rest

/-- A text occurs in another exactly when it is one of its infixes. -/
theorem occursIn_iff {part whole : List Char} : occursIn part whole = true ↔ part <:+: whole := by
  induction whole with
  | nil => simp [occursIn]
  | cons c rest ih => simp [occursIn, ih, List.infix_cons_iff]

/-- The number of characters in front of the first occurrence of a text. -/
def firstPlace? (part : List Char) : List Char → Option Nat
  | [] => if part.isEmpty then some 0 else none
  | c :: rest =>
    if part.isPrefixOf (c :: rest) then some 0 else (firstPlace? part rest).map (· + 1)

/-- A text has a first place in another exactly when it occurs there. -/
theorem isSome_firstPlace? (part whole : List Char) :
    (firstPlace? part whole).isSome = occursIn part whole := by
  induction whole with
  | nil => cases h : part.isEmpty <;> simp [firstPlace?, occursIn, h]
  | cons c rest ih =>
    unfold firstPlace? occursIn
    split
    · rename_i h
      simp [h]
    · rename_i h
      simp [h, ih]

/-- The number of occurrences of a text, found from left to right, of which none
reaches into another; characters of an occurrence are passed over. -/
def countFrom (part : List Char) : Nat → List Char → Nat
  | _, [] => 0
  | passed + 1, _ :: rest => countFrom part passed rest
  | 0, c :: rest =>
    if part.isPrefixOf (c :: rest) then countFrom part (part.length - 1) rest + 1
    else countFrom part 0 rest

/-- The number of separate occurrences of a text in another. The empty text
occurs around every character. -/
def occurrences (part whole : List Char) : Nat :=
  if part.isEmpty then whole.length + 1 else countFrom part 0 whole

end DispatchCoverage.Text

import DispatchCoverage.Text.Range

/-!
# Blank characters

The characters that separate words: the Unicode white space together with the
four information separators U+001C to U+001F. Zero-width characters and the
byte order mark are not blank.
-/

namespace DispatchCoverage.Text

/-- The ranges of Unicode white space, both ends included, in ascending
order. -/
def whiteRanges : List (Nat × Nat) :=
  [(0x09, 0x0D), (0x20, 0x20), (0x85, 0x85), (0xA0, 0xA0), (0x1680, 0x1680), (0x2000, 0x200A),
    (0x2028, 0x2029), (0x202F, 0x202F), (0x205F, 0x205F), (0x3000, 0x3000)]

/-- Whether a character is Unicode white space. -/
def isWhite (c : Char) : Bool := inRanges whiteRanges c

/-- Whether a character is one of the four information separators. -/
def isInformationSeparator (c : Char) : Bool := 0x1C ≤ c.toNat && c.toNat ≤ 0x1F

/-- Whether a character is blank. -/
def isBlank (c : Char) : Bool := isWhite c || isInformationSeparator c

/-- The ASCII white space is white. -/
theorem isWhite_of_isWhitespace {c : Char} (h : c.isWhitespace = true) : isWhite c = true := by
  simp only [Char.isWhitespace, Bool.or_eq_true, decide_eq_true_eq] at h
  rcases h with ((rfl | rfl) | rfl) | rfl <;> decide

/-- White space is blank. -/
theorem isBlank_of_isWhite {c : Char} (h : isWhite c = true) : isBlank c = true := by
  simp [isBlank, h]

/-- A text without the characters of a kind at either end. -/
def trim (kind : Char → Bool) (cs : List Char) : List Char :=
  ((cs.dropWhile kind).reverse.dropWhile kind).reverse

/-- What a text ends with, if it is of a kind, is cut off. -/
theorem trim_append {kind : Char → Bool} {later : List Char} (h : ∀ c ∈ later, kind c = true)
    (cs : List Char) : trim kind (cs ++ later) = trim kind cs := by
  have hlater : ∀ c ∈ later.reverse, kind c = true := by simpa using h
  have hnone : (later ++ []).dropWhile kind = [] := List.dropWhile_append_of_pos h
  rw [trim, trim, List.dropWhile_append]
  split
  · rename_i hnil
    rw [List.append_nil] at hnone
    rw [hnone, List.isEmpty_iff.1 hnil]
  · rw [List.reverse_append, List.dropWhile_append_of_pos hlater]

/-- A text that neither begins nor ends with a character of a kind is left as it
is. -/
theorem trim_eq_self {kind : Char → Bool} {cs : List Char}
    (hfirst : ∀ c ∈ cs.head?, kind c = false) (hlast : ∀ c ∈ cs.getLast?, kind c = false) :
    trim kind cs = cs := by
  have hkeep : ∀ ds : List Char, (∀ c ∈ ds.head?, kind c = false) → ds.dropWhile kind = ds := by
    intro ds hds
    cases ds with
    | nil => rfl
    | cons d ds => exact List.dropWhile_cons_of_neg (by simp [hds d rfl])
  rw [trim, hkeep cs hfirst, hkeep cs.reverse (by simpa using hlast), List.reverse_reverse]

/-- A text is what is left of it without the blanks at its end, and these blanks. -/
theorem exists_append_blanks (cs : List Char) : ∃ core blanks, cs = core ++ blanks ∧
    (∀ c ∈ core.getLast?, isBlank c = false) ∧ ∀ c ∈ blanks, isBlank c = true := by
  refine ⟨(cs.reverse.dropWhile isBlank).reverse, (cs.reverse.takeWhile isBlank).reverse, ?_,
    fun c hc => ?_, fun c hc => ?_⟩
  · rw [← List.reverse_append, List.takeWhile_append_dropWhile, List.reverse_reverse]
  · rw [List.getLast?_reverse] at hc
    have hhead := List.head?_dropWhile_not isBlank cs.reverse
    rw [hc] at hhead
    simpa using hhead
  · have hmem := List.mem_reverse.1 hc
    exact List.all_eq_true.1 List.all_takeWhile c hmem

end DispatchCoverage.Text

/-!
# Lines of a text

A line ends at a line break: a line feed, a carriage return with or without a
line feed behind it, a vertical tab, a form feed, one of the separators U+001C
to U+001E, the next-line control U+0085, or the separators U+2028 and U+2029.
A break at the end of a text opens no further line.
-/

namespace DispatchCoverage.Text

/-- Whether a character ends a line. -/
def isLineBreak (c : Char) : Bool :=
  (0x0A ≤ c.toNat && c.toNat ≤ 0x0D) || (0x1C ≤ c.toNat && c.toNat ≤ 0x1E) ||
    c.toNat == 0x85 || c.toNat == 0x2028 || c.toNat == 0x2029

/-- The lines of a text, without their breaks. -/
def lines : List Char → List (List Char)
  | [] => []
  | '\r' :: '\n' :: rest => [] :: lines rest
  | c :: rest =>
    if isLineBreak c then [] :: lines rest
    else
      match lines rest with
      | [] => [[c]]
      | line :: later => (c :: line) :: later

/-- No line holds a line break. -/
theorem isLineBreak_of_mem_lines {cs line : List Char} (hl : line ∈ lines cs) {c : Char}
    (hc : c ∈ line) : isLineBreak c = false := by
  induction cs using lines.induct generalizing line with
  | case1 => simp [lines] at hl
  | case2 rest ih =>
    rw [lines] at hl
    rcases List.mem_cons.1 hl with rfl | hl
    · exact absurd hc List.not_mem_nil
    · exact ih hl hc
  | case3 a rest hne hb ih =>
    rw [lines, if_pos hb] at hl
    · rcases List.mem_cons.1 hl with rfl | hl
      · exact absurd hc List.not_mem_nil
      · exact ih hl hc
    · exact hne
  | case4 a rest hne hb hnil ih =>
    rw [lines, if_neg hb, hnil] at hl
    · simp only [List.mem_singleton] at hl
      subst hl
      simp only [List.mem_singleton] at hc
      subst hc
      simpa using hb
    · exact hne
  | case5 a rest hne hb first later heq ih =>
    rw [lines, if_neg hb, heq] at hl
    · rcases List.mem_cons.1 hl with rfl | hl
      · rcases List.mem_cons.1 hc with rfl | hc
        · simpa using hb
        · exact ih (heq ▸ List.mem_cons_self) hc
      · exact ih (heq ▸ List.mem_cons_of_mem _ hl) hc
    · exact hne

/-- A text without line breaks. -/
def IsOneLine (text : List Char) : Prop := ∀ c ∈ text, isLineBreak c = false

instance (text : List Char) : Decidable (IsOneLine text) :=
  decidable_of_iff (text.all fun c => !isLineBreak c) (by simp [IsOneLine])

/-- Two texts without line breaks have none side by side. -/
theorem IsOneLine.append {a b : List Char} (ha : IsOneLine a) (hb : IsOneLine b) :
    IsOneLine (a ++ b) := fun c hc => (List.mem_append.1 hc).elim (ha c) (hb c)

/-- What stands in front of a line feed, if it has no line break, is the first
line. -/
theorem lines_append_lineFeed {line : List Char} (h : IsOneLine line) (rest : List Char) :
    lines (line ++ '\n' :: rest) = line :: lines rest := by
  induction line with
  | nil =>
    rw [List.nil_append, lines, if_pos (by decide)]
    exact fun _ hc => absurd hc (by decide)
  | cons c line ih =>
    have hc : isLineBreak c = false := h c List.mem_cons_self
    have hline : IsOneLine line := fun d hd => h d (List.mem_cons_of_mem c hd)
    rw [List.cons_append, lines, if_neg (by simp [hc]), ih hline]
    rintro _ rfl
    exact absurd hc (by decide)

/-- Lines that are each ended by a line feed. -/
def terminated (lines : List String) : String := String.join (lines.map (· ++ "\n"))

/-- Lines are ended one after the other. -/
theorem toList_terminated_cons (line : String) (ls : List String) :
    (terminated (line :: ls)).toList = line.toList ++ '\n' :: (terminated ls).toList := by
  simp [terminated, String.join_cons]

/-- The lines of a text are those that it was put together from. -/
theorem lines_terminated {ls : List String} (h : ∀ line ∈ ls, IsOneLine line.toList) :
    lines (terminated ls).toList = ls.map String.toList := by
  induction ls with
  | nil => rfl
  | cons line ls ih =>
    obtain ⟨hline, hls⟩ := List.forall_mem_cons.1 h
    rw [toList_terminated_cons, lines_append_lineFeed hline, ih hls, List.map_cons]

/-- The text in which every carriage return, with or without a line feed
behind it, is replaced by a line feed. -/
def unifyLineFeeds : List Char → List Char
  | [] => []
  | '\r' :: '\n' :: rest => '\n' :: unifyLineFeeds rest
  | c :: rest => (if c = '\r' then '\n' else c) :: unifyLineFeeds rest

/-- A text without carriage returns has nothing to unify. -/
theorem unifyLineFeeds_eq_self {cs : List Char} (h : '\r' ∉ cs) : unifyLineFeeds cs = cs := by
  induction cs with
  | nil => rfl
  | cons c cs ih =>
    obtain ⟨hc, hcs⟩ : '\r' ≠ c ∧ '\r' ∉ cs := by simpa using h
    rw [unifyLineFeeds, if_neg (Ne.symm hc), ih hcs]
    rintro _ rfl
    exact absurd rfl hc

/-- Lines that are ended by line feeds hold no carriage return. -/
theorem unifyLineFeeds_terminated {ls : List String} (h : ∀ line ∈ ls, IsOneLine line.toList) :
    unifyLineFeeds (terminated ls).toList = (terminated ls).toList := by
  refine unifyLineFeeds_eq_self ?_
  induction ls with
  | nil => exact List.not_mem_nil
  | cons line ls ih =>
    obtain ⟨hline, hls⟩ := List.forall_mem_cons.1 h
    rw [toList_terminated_cons, List.mem_append, List.mem_cons, not_or, not_or]
    refine ⟨fun hmem => ?_, by decide, ih hls⟩
    exact absurd (hline _ hmem) (by decide)

end DispatchCoverage.Text

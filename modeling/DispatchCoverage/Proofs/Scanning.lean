import DispatchCoverage.Surface.Token

/-!
# Scanning for tokens

A text is scanned for special characters, which are tokens of their own, and for
runs of ordinary characters, which are neither special nor blank. Two texts side by
side are scanned one by one, unless a run reaches from the end of the first into the
second. So a text can be scanned piece by piece: blanks, special characters and
runs.
-/

namespace DispatchCoverage.Surface

variable {specials : List Char} {c : Char} {a b w cs rest : List Char}

/-- Whether a character belongs to a run: it is neither blank nor special. -/
def isOrdinary (specials : List Char) (c : Char) : Bool :=
  !Text.isBlank c && !specials.contains c

/-- A blank is not ordinary. -/
theorem isOrdinary_of_isBlank (h : Text.isBlank c = true) : isOrdinary specials c = false := by
  simp [isOrdinary, h]

/-- A special character is not ordinary. -/
theorem isOrdinary_of_mem (h : c ∈ specials) : isOrdinary specials c = false := by
  simp [isOrdinary, h]

/-- The tokens of characters in which the signs of the empty set are set apart. -/
def scanned (specials cs : List Char) : List (List Char) :=
  closeRun (scan specials cs).1 (scan specials cs).2

/-- No characters hold no tokens. -/
theorem scanned_nil : scanned specials [] = [] := rfl

/-- A blank separates without being a token. -/
theorem scanned_blank (h : Text.isBlank c = true) :
    scanned specials (c :: rest) = scanned specials rest := by
  simp [scanned, scan, closeRun, h]

/-- A special character is a token of its own. -/
theorem scanned_special (hblank : Text.isBlank c = false) (h : c ∈ specials) :
    scanned specials (c :: rest) = [c] :: scanned specials rest := by
  simp [scanned, scan, closeRun, h, hblank]

/-- Ordinary characters are scanned as one run. -/
theorem scan_ordinary (h : ∀ c ∈ w, isOrdinary specials c = true) : scan specials w = (w, []) := by
  induction w with
  | nil => rfl
  | cons c w ih =>
    have hc : isOrdinary specials c = true := h c List.mem_cons_self
    simp only [isOrdinary, Bool.and_eq_true, Bool.not_eq_true'] at hc
    have hw := ih fun d hd => h d (List.mem_cons_of_mem c hd)
    simp only [scan, hw, hc.1, hc.2, Bool.false_eq_true, if_false]

/-- A run of ordinary characters alone is one token. -/
theorem scanned_run (hne : w ≠ []) (h : ∀ c ∈ w, isOrdinary specials c = true) :
    scanned specials w = [w] := by
  simp [scanned, scan_ordinary h, closeRun, hne]

/-- No run begins at a character that is not ordinary. -/
theorem scan_fst_eq_nil (h : ∀ c ∈ rest.head?, isOrdinary specials c = false) :
    (scan specials rest).1 = [] := by
  cases rest with
  | nil => rfl
  | cons c rest =>
    have hc : isOrdinary specials c = false := h c rfl
    simp only [isOrdinary, Bool.and_eq_false_iff, Bool.not_eq_false'] at hc
    simp only [scan]
    split
    · rfl
    · rename_i hblank
      rw [if_pos (hc.resolve_left hblank)]

/-- Closing a run leaves the last tokens where they are. -/
theorem closeRun_append (run : List Char) (tokens later : List (List Char)) :
    closeRun run (tokens ++ later) = closeRun run tokens ++ later := by
  unfold closeRun
  split <;> rfl

/-- Scanning in front of a character that is not ordinary puts the tokens behind it
last. -/
theorem scan_append (h : ∀ c ∈ rest.head?, isOrdinary specials c = false) :
    scan specials (cs ++ rest) =
      ((scan specials cs).1, (scan specials cs).2 ++ scanned specials rest) := by
  induction cs with
  | nil =>
    have hrun := scan_fst_eq_nil h
    have htokens : scanned specials rest = (scan specials rest).2 := by
      simp [scanned, closeRun, hrun]
    exact Prod.ext hrun htokens.symm
  | cons c cs ih =>
    simp only [List.cons_append, scan, ih, closeRun_append]
    split
    · rfl
    · split <;> rfl

/-- Characters are scanned on their own in front of one that is not ordinary. -/
theorem scanned_append_of_head (h : ∀ c ∈ rest.head?, isOrdinary specials c = false) :
    scanned specials (cs ++ rest) = scanned specials cs ++ scanned specials rest := by
  unfold scanned
  rw [scan_append h, closeRun_append]
  rfl

/-- No run reaches from the end of a text into another behind it. -/
def Separate (specials a b : List Char) : Prop :=
  ∀ c ∈ a.getLast?, ∀ d ∈ b.head?, ¬(isOrdinary specials c = true ∧ isOrdinary specials d = true)

/-- Characters behind one that is not ordinary are scanned on their own. -/
theorem scanned_cons (hc : isOrdinary specials c = false) :
    scanned specials (c :: rest) = scanned specials [c] ++ scanned specials rest := by
  cases hblank : Text.isBlank c with
  | true => rw [scanned_blank hblank, scanned_blank hblank, scanned_nil, List.nil_append]
  | false =>
    have hspecial : c ∈ specials := by simpa [isOrdinary, hblank] using hc
    rw [scanned_special hblank hspecial, scanned_special hblank hspecial, scanned_nil]
    rfl

/-- Separate texts are scanned one by one. -/
theorem scanned_append (h : Separate specials a b) :
    scanned specials (a ++ b) = scanned specials a ++ scanned specials b := by
  rcases List.eq_nil_or_concat a with rfl | ⟨a, c, rfl⟩
  · rfl
  cases hc : isOrdinary specials c with
  | true =>
    exact scanned_append_of_head fun d hd => by simpa [hc] using h c (by simp) d hd
  | false =>
    -- the last character of the first text stands alone, and so does what is behind it
    have hlast (later : List Char) : ∀ e ∈ (c :: later).head?, isOrdinary specials e = false := by
      simpa using hc
    rw [List.concat_eq_append, List.append_assoc, List.singleton_append,
      scanned_append_of_head (hlast b),
      scanned_cons hc, scanned_append_of_head (hlast []), List.append_assoc]

/-- What holds of no characters, and still holds with a character that is not
ordinary or with a longest run in front, holds of all characters. -/
theorem piecewise (specials : List Char) {motive : List Char → Prop} (nil : motive [])
    (alone : ∀ c rest, isOrdinary specials c = false → motive rest → motive (c :: rest))
    (run : ∀ w rest, w ≠ [] → (∀ c ∈ w, isOrdinary specials c = true) →
      (∀ c ∈ rest.head?, isOrdinary specials c = false) → motive rest → motive (w ++ rest))
    (cs : List Char) : motive cs := by
  -- the induction carries a run that is not closed yet
  suffices hopen : ∀ w, (∀ c ∈ w, isOrdinary specials c = true) → motive (w ++ cs) from
    hopen [] fun _ hc => absurd hc List.not_mem_nil
  induction cs with
  | nil =>
    intro w hw
    by_cases hne : w = []
    · rwa [hne]
    · exact run w [] hne hw (fun _ hc => nomatch hc) nil
  | cons c cs ih =>
    intro w hw
    cases hc : isOrdinary specials c with
    | false =>
      have hrest : motive (c :: cs) := alone c cs hc (ih [] fun _ hd => absurd hd List.not_mem_nil)
      by_cases hne : w = []
      · rwa [hne]
      · exact run w (c :: cs) hne hw (by simpa using hc) hrest
    | true =>
      have hlonger := ih (w ++ [c]) fun d hd => by
        rcases List.mem_append.1 hd with hmem | hmem
        · exact hw d hmem
        · rwa [List.mem_singleton.1 hmem]
      rwa [List.append_assoc, List.singleton_append] at hlonger

/-- A token is a special character, or one or more ordinary characters. -/
theorem special_or_run_of_mem {token : List Char} (h : token ∈ scanned specials cs) :
    (∃ c ∈ specials, token = [c]) ∨
      token ≠ [] ∧ ∀ c ∈ token, isOrdinary specials c = true := by
  induction cs using piecewise specials with
  | nil => exact absurd h List.not_mem_nil
  | alone c rest hc ih =>
    cases hblank : Text.isBlank c with
    | true => exact ih (scanned_blank hblank ▸ h)
    | false =>
      have hmem : c ∈ specials := by simpa [isOrdinary, hblank] using hc
      rw [scanned_special hblank hmem] at h
      rcases List.mem_cons.1 h with rfl | hrest
      · exact .inl ⟨c, hmem, rfl⟩
      · exact ih hrest
  | run w rest hne hw hrest ih =>
    rw [scanned_append_of_head hrest, scanned_run hne hw] at h
    rcases List.mem_append.1 h with hfirst | hlater
    · exact .inr (List.mem_singleton.1 hfirst ▸ ⟨hne, hw⟩)
    · exact ih hlater

/-- Closing a run keeps its characters in front of the tokens. -/
theorem flatten_closeRun (run : List Char) (tokens : List (List Char)) :
    (closeRun run tokens).flatten = run ++ tokens.flatten := by
  unfold closeRun
  split
  · rename_i hrun
    rw [List.isEmpty_iff.1 hrun, List.nil_append]
  · rfl

/-- The tokens together are the characters without the blanks. -/
theorem flatten_scanned (specials cs : List Char) :
    (scanned specials cs).flatten = cs.filter fun c => !Text.isBlank c := by
  unfold scanned
  rw [flatten_closeRun]
  induction cs with
  | nil => rfl
  | cons c cs ih =>
    simp only [scan]
    split
    · rename_i hblank
      rw [List.filter_cons_of_neg (by simp [hblank]), ← ih, flatten_closeRun, List.nil_append]
    · rename_i hblank
      rw [List.filter_cons_of_pos (by simp [hblank]), ← ih]
      split
      · rw [List.flatten_cons, flatten_closeRun, List.nil_append, List.singleton_append]
      · rfl

end DispatchCoverage.Surface

import DispatchCoverage.Value.Fault

/-!
# Fingerprints of values

Keys with the same fingerprint are looked up at the same place. Values that are
the same have the same fingerprint, but so have some that differ: a signature
and the tuple of its parameters, a tag and the tuple of its name and arguments,
an alternation and the set of its members, and integers that differ by a
multiple of a fixed prime.
-/

namespace DispatchCoverage

mutual

/-- The fingerprint of a tag: its name in front of the fingerprints of its
arguments. -/
def Tag.fingerprint : Tag → Value
  | .mk n ts => .tuple (.str n.text :: Tag.fingerprints ts)

/-- The fingerprints of several tags, in order. -/
def Tag.fingerprints : List Tag → List Value
  | [] => []
  | t :: ts => Tag.fingerprint t :: Tag.fingerprints ts

end

namespace Value

/-- The modulus of the fingerprints of integers. -/
def fingerprintModulus : Nat := 2305843009213693951

/-- The fingerprint of an integer: its remainder with the sign of the integer,
where -1 is taken for -2. -/
def integerFingerprint (i : Int) : Int :=
  let rest : Int := (i.natAbs % fingerprintModulus : Nat)
  let signed := if i < 0 then -rest else rest
  if signed = -1 then -2 else signed

/-- The fingerprint that an altered signature was given: an integer stands for
itself as long as it fits into a word. -/
def givenFingerprint (i : Int) : Int :=
  if i = -1 then -2 else if fitsWord i then i else integerFingerprint i

mutual

/-- The fingerprint of a value. The empty text has that of zero. -/
def fingerprint : Value → Value
  | bool b => int (if b then 1 else 0)
  | int i => int (integerFingerprint i)
  | str s => if s.isEmpty then int 0 else str s
  | tag t => t.fingerprint
  | union u => set (TypeSet.ofTypes [.union u])
  | signature s => tuple (s.parameters.map set)
  | tuple vs => tuple (fingerprints vs)
  | alteredUnion members =>
    match (alteredUnion members).alternatives?, members with
    | some ts, _ => set (.ofTypes (ts.map .tag))
    | .none, list vs => alteredUnion (list (fingerprints vs))
    | .none, tuple vs => alteredUnion (list (fingerprints vs))
    | .none, v => alteredUnion v
  | alteredSignature _ (int i) => int (givenFingerprint i)
  | alteredSignature _ kept => kept
  | v => v

/-- The fingerprints of several values, in order. -/
def fingerprints : List Value → List Value
  | [] => []
  | v :: vs => fingerprint v :: fingerprints vs

end

/-- Whether two keys are looked up at the same place. -/
def sharesFingerprint (x y : Value) : Except Fault Bool :=
  if x.isKey && y.isKey then .ok (x.fingerprint.equals y.fingerprint) else .error .unsuitable

/-- The different values among some values, in the order of first
occurrence. -/
def distinct (vs : List Value) : List Value :=
  vs.foldl (fun seen v => if seen.any v.equals then seen else seen ++ [v]) []

/-- The different values in a value that can be listed; all of them have to be
keys. -/
def distinctItems (v : Value) : Except Fault (List Value) := do
  let vs ← v.items
  if areKeys vs then return distinct vs else throw .unsuitable

/-- Signatures are the same as values exactly when they are equal. -/
theorem equals_signature (s t : Signature) : (signature s).equals (signature t) = (s == t) := by
  rw [equals]

/-- Signatures are keys. -/
theorem areKeys_signatures (ss : List Signature) : areKeys (ss.map signature) = true := by
  induction ss with
  | nil => rfl
  | cons s ss ih =>
    rw [List.map_cons, areKeys, ih]
    rfl

/-- Dropping repetitions behind signatures that are kept leaves the same
signatures. -/
theorem exists_foldl_signatures (ss seen : List Signature) :
    ∃ kept : List Signature,
      (ss.map signature).foldl (fun seen v => if seen.any v.equals then seen else seen ++ [v])
        (seen.map signature) = kept.map signature ∧ ∀ s, s ∈ kept ↔ s ∈ seen ∨ s ∈ ss := by
  induction ss generalizing seen with
  | nil => exact ⟨seen, rfl, fun s => (or_iff_left List.not_mem_nil).symm⟩
  | cons s ss ih =>
    have hany : (seen.map signature).any (signature s).equals = true ↔ s ∈ seen := by
      simp [equals_signature]
    rw [List.map_cons, List.foldl_cons]
    by_cases hs : s ∈ seen
    · obtain ⟨kept, hkept, hmem⟩ := ih seen
      have hsame : ∀ t, t = s → t ∈ seen := fun t h => h ▸ hs
      rw [if_pos (hany.2 hs)]
      refine ⟨kept, hkept, fun t => ?_⟩
      rw [hmem, List.mem_cons, ← or_assoc, or_iff_left_of_imp (hsame t)]
    · obtain ⟨kept, hkept, hmem⟩ := ih (seen ++ [s])
      rw [List.map_append] at hkept
      rw [if_neg (mt hany.1 hs)]
      refine ⟨kept, hkept, fun t => ?_⟩
      rw [hmem, List.mem_append, List.mem_singleton, List.mem_cons, or_assoc]

/-- Dropping repetitions among signatures leaves the same signatures. -/
theorem exists_distinct_signatures (ss : List Signature) :
    ∃ kept : List Signature, distinct (ss.map signature) = kept.map signature ∧
      ∀ s, s ∈ kept ↔ s ∈ ss := by
  obtain ⟨kept, hkept, hmem⟩ := exists_foldl_signatures ss []
  exact ⟨kept, hkept, fun s => (hmem s).trans (or_iff_right List.not_mem_nil)⟩

/-- A value that holds signatures holds the same signatures without
repetitions. -/
theorem exists_distinctItems_signatures {v : Value} {ss : List Signature}
    (h : v.items? = some (ss.map signature)) :
    ∃ kept : List Signature, v.distinctItems = .ok (kept.map signature) ∧
      ∀ s, s ∈ kept ↔ s ∈ ss := by
  obtain ⟨kept, hkept, hmem⟩ := exists_distinct_signatures ss
  refine ⟨kept, ?_, hmem⟩
  rw [distinctItems, items, h, ← hkept]
  dsimp only [bind, Except.bind]
  rw [areKeys_signatures]
  rfl

end Value

end DispatchCoverage

/-!
# Bitwise operations on integers

An integer is read as two's complement of unlimited width: a negative integer
is the complement of the natural number one below its absolute value. Each
operation acts on all bits at once.
-/

namespace DispatchCoverage.Bitwise

/-- The bits of the first number that the second one lacks. -/
def without (a b : Nat) : Nat := Nat.xor a (Nat.land a b)

/-- The bits that both integers have. -/
def and : Int → Int → Int
  | .ofNat a, .ofNat b => .ofNat (Nat.land a b)
  | .ofNat a, .negSucc b => .ofNat (without a b)
  | .negSucc a, .ofNat b => .ofNat (without b a)
  | .negSucc a, .negSucc b => .negSucc (Nat.lor a b)

/-- The bits that at least one of two integers has. -/
def or : Int → Int → Int
  | .ofNat a, .ofNat b => .ofNat (Nat.lor a b)
  | .ofNat a, .negSucc b => .negSucc (without b a)
  | .negSucc a, .ofNat b => .negSucc (without a b)
  | .negSucc a, .negSucc b => .negSucc (Nat.land a b)

/-- The bits that exactly one of two integers has. -/
def xor : Int → Int → Int
  | .ofNat a, .ofNat b => .ofNat (Nat.xor a b)
  | .ofNat a, .negSucc b => .negSucc (Nat.xor a b)
  | .negSucc a, .ofNat b => .negSucc (Nat.xor a b)
  | .negSucc a, .negSucc b => .ofNat (Nat.xor a b)

/-- Negative integers have all high bits. -/
example : and (-4) 6 = 4 ∧ or (-4) 6 = -2 ∧ xor (-4) 6 = -6 ∧ and (-4) (-6) = -8 := by decide

end DispatchCoverage.Bitwise

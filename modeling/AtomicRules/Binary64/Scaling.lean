import AtomicRules.Binary64.Rounding

/-!
# Scaling by powers of ten

A coefficient times a power of ten as a binary64 magnitude, computed in the format itself: the
coefficient is rounded, and so is its product with a rounded power of ten, or its quotient by one.
The result can differ in its last bits from the magnitude nearest to the exact value, but not when
the coefficient is a binary64 number and the exponent is zero.
-/

namespace AtomicRules.Binary64

/-- The largest exponent of a finite power of ten. -/
def maxPower : Nat := 308

/-- The magnitude of a power of ten. -/
def powerOfTen (exponent : Nat) : Nat :=
  nearest (Nat.pow 10 exponent) 1

/-- The magnitude times a power of ten, unless that is too large. -/
def scaleUp (magnitude exponent : Nat) : Option Nat :=
  if exponent ≤ maxPower then
    some (product magnitude (powerOfTen exponent)) |>.filter (· < infinity)
  else if magnitude = 0 then some 0 else none

/-- The magnitude divided by a power of ten. A power that is not finite is divided by in steps of
the largest finite one. -/
def scaleDown (magnitude exponent : Nat) : Nat :=
  if exponent ≤ maxPower then quotient magnitude (powerOfTen exponent)
  else if magnitude = 0 then 0
  else scaleDown (quotient magnitude (powerOfTen maxPower)) (exponent - maxPower)
termination_by exponent
decreasing_by simp only [maxPower] at *; omega

/-- The magnitude of `coefficient · 10 ^ exponent`, unless that is too large. -/
def scaled (coefficient : Nat) : Int → Option Nat
  | .ofNat exponent => scaleUp (nearest coefficient 1) exponent
  | .negSucc exponent => some (scaleDown (nearest coefficient 1) (exponent + 1))

/-- Dividing by a power of ten gives a magnitude that is at most infinity. -/
theorem scaleDown_le_infinity (magnitude exponent : Nat) :
    scaleDown magnitude exponent ≤ infinity := by
  fun_induction scaleDown magnitude exponent with
  | case1 => exact nearest_le_infinity _ _
  | case2 => decide
  | case3 _ _ _ _ ih => exact ih

/-- Multiplying by a power of ten gives a finite magnitude or none. -/
theorem lt_infinity_of_scaleUp {magnitude exponent result : Nat}
    (h : scaleUp magnitude exponent = some result) : result < infinity := by
  unfold scaleUp at h
  split at h
  · simp only [Option.filter_eq_some_iff, decide_eq_true_eq] at h
    exact h.2
  · split at h
    · injection h with zero
      subst zero
      decide
    · contradiction

/-- A scaled coefficient fits below the sign bit. -/
theorem scaled_lt {coefficient : Nat} {exponent : Int} {magnitude : Nat}
    (h : scaled coefficient exponent = some magnitude) : magnitude < 0x8000000000000000 := by
  cases exponent with
  | ofNat => exact Nat.lt_trans (lt_infinity_of_scaleUp h) (by decide)
  | negSucc =>
      injection h with eq
      exact eq ▸ Nat.lt_of_le_of_lt (scaleDown_le_infinity _ _) (by decide)

/-- A product of rounded factors can miss the nearest number. -/
example : scaled 12345678901234568000 1 ≠ some (nearest 123456789012345680000 1) := by
  decide +kernel

example : scaled 1 309 = none := by decide +kernel
example : scaled 0 309 = some 0 := by decide +kernel
example : scaled 5 (-324) = some 1 := by decide +kernel

end AtomicRules.Binary64

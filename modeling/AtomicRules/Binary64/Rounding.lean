import AtomicRules.Binary64.Basic

/-!
# Rounding to binary64

The magnitude nearest to a ratio of natural numbers, and what follows from it: conversions of
integers and of binary32 numbers, and the rounded product and quotient of two magnitudes. Of two
equally near magnitudes the even one is taken, and a ratio too large for the format becomes
infinity (`nearest_le_infinity`).
-/

namespace AtomicRules

namespace Binary64

/-- The natural number nearest to `num / den`, the even one of two. -/
def roundHalfEven (num den : Nat) : Nat :=
  let floor := num / den
  let twice := 2 * (num % den)
  if twice < den then floor else if den < twice then floor + 1 else floor + floor % 2

/-- Rounding moves a ratio by at most one half. -/
theorem roundHalfEven_within {num den : Nat} (hden : 0 < den) :
    2 * num ≤ (2 * roundHalfEven num den + 1) * den ∧
      2 * roundHalfEven num den * den ≤ 2 * num + den := by
  have split := Nat.div_add_mod num den
  have lt := Nat.mod_lt num hden
  unfold roundHalfEven
  generalize num / den = floor at *
  generalize num % den = rest at *
  subst split
  have parity := Nat.mod_two_eq_zero_or_one floor
  dsimp only
  split
  · constructor <;> grind
  · split
    · constructor <;> grind
    · rcases parity with even | odd <;> constructor <;> grind

/-- The magnitude nearest to `num / den`. The ratio is taken in units of `2 ^ -1074` and halved
until 53 bits are left before the point, so the number of halvings counts the exponent up. -/
def nearest (num den : Nat) : Nat :=
  let scaled := num <<< 1074
  let halvings := (scaled / den).log2 - 52
  min (halvings <<< 52 + roundHalfEven scaled (den <<< halvings)) infinity

/-- Rounding never passes infinity. -/
theorem nearest_le_infinity (num den : Nat) : nearest num den ≤ infinity :=
  Nat.min_le_right _ _

/-- The number nearest to `num / den`, or to its negative. -/
def ofRatio (negative : Bool) (num den : Nat) : Binary64 where
  negative := negative
  magnitude := nearest num den
  magnitude_lt := Nat.lt_of_le_of_lt (nearest_le_infinity num den) (by decide)

/-- The number nearest to an integer. -/
def ofInt (n : Int) : Binary64 :=
  ofRatio (n < 0) n.natAbs 1

/-- The rounded product of two finite magnitudes. -/
def product (a b : Nat) : Nat :=
  nearest (units a * units b) (1 <<< 2148)

/-- The rounded quotient of two finite magnitudes, the second one not zero. -/
def quotient (a b : Nat) : Nat :=
  nearest (units a) (units b)

example : ofInt 0x20000000000001 = ofInt 0x20000000000000 := by decide +kernel
example : ofInt 0x20000000000003 = ofInt 0x20000000000004 := by decide +kernel

/-- A ratio halfway past the largest number is infinite already. -/
example : nearest (0x1fffffffffffff <<< 971 + 1 <<< 970) 1 = infinity := by decide +kernel

end Binary64

/-- A binary32 number, as its bits. -/
structure Binary32 where
  bits : UInt32

namespace Binary32

/-- The binary64 number of the same value. A binary32 number is finite unless its exponent bits
are all ones, and then counts units of `2 ^ -149`. -/
def widen (x : Binary32) : Binary64 :=
  let bits := x.bits.toNat
  let exponent := bits / 0x800000 % 0x100
  let fraction := bits % 0x800000
  let negative := 0x80000000 ≤ bits
  match exponent with
  | 0 => Binary64.ofRatio negative fraction (1 <<< 149)
  | 0xff =>
      { negative
        magnitude := Binary64.infinity + fraction <<< 29
        magnitude_lt := by
          have lt : fraction < 0x800000 := Nat.mod_lt _ (by decide)
          simp only [Binary64.infinity, Nat.shiftLeft_eq]
          omega }
  | exponent + 1 =>
      Binary64.ofRatio negative ((0x800000 + fraction) <<< exponent) (1 <<< 149)

example : (widen ⟨0x3dcccccd⟩).toBits = 0x3fb99999a0000000 := by decide +kernel
example : (widen ⟨0x80000001⟩).toBits = 0xb6a0000000000000 := by decide +kernel

end Binary32

end AtomicRules

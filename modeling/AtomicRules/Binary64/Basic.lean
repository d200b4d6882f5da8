/-!
# Binary64 numbers

The numbers of the IEEE 754 format binary64: a sign and a magnitude. The magnitude is the bit
pattern below the sign bit. It numbers the values from zero up in increasing order
(`units_lt_units`), first the finite ones, then infinity, then the patterns that are not a number.
A number is its 64 bits (`ofBits_toBits`, `toBits_ofBits`).

Equality `==` compares values, so zero equals minus zero and nothing equals a NaN.
-/

namespace AtomicRules

/-- A binary64 number. -/
structure Binary64 where
  negative : Bool
  magnitude : Nat
  magnitude_lt : magnitude < 0x8000000000000000
deriving DecidableEq

namespace Binary64

/-- The magnitude of infinity, the first one that is not finite. -/
def infinity : Nat := 0x7ff0000000000000

/-- The number with the given bits. -/
def ofBits (bits : UInt64) : Binary64 where
  negative := 0x8000000000000000 ≤ bits.toNat
  magnitude := bits.toNat % 0x8000000000000000
  magnitude_lt := Nat.mod_lt _ (by decide)

/-- The bits of a number. -/
def toBits (x : Binary64) : UInt64 :=
  UInt64.ofNat ((if x.negative then 0x8000000000000000 else 0) + x.magnitude)

/-- The number is not a NaN and not infinite. -/
def isFinite (x : Binary64) : Bool :=
  x.magnitude < infinity

/-- The number is one of the NaNs. -/
def isNaN (x : Binary64) : Bool :=
  infinity < x.magnitude

/-- The number is zero, of either sign. -/
def isZero (x : Binary64) : Bool :=
  x.magnitude == 0

instance : BEq Binary64 where
  beq x y :=
    !x.isNaN && x.magnitude == y.magnitude && (x.isZero || x.negative == y.negative)

instance : Inhabited Binary64 := ⟨⟨false, 0, by decide⟩⟩

/-- The size of a finite magnitude in units of `2 ^ -1074`, the distance between zero and the
smallest number above it. Infinity counts as the power of two that would come next. -/
def units (magnitude : Nat) : Nat :=
  let fraction := magnitude % 0x10000000000000
  match magnitude / 0x10000000000000 with
  | 0 => fraction
  | exponent + 1 => (0x10000000000000 + fraction) <<< exponent

/-- Reading the bits of a number gives the number. -/
theorem ofBits_toBits (x : Binary64) : ofBits x.toBits = x := by
  obtain ⟨negative, magnitude, lt⟩ := x
  cases negative <;> simp [ofBits, toBits, UInt64.toNat_ofNat'] <;> omega

/-- The bits of the number with given bits are these. -/
theorem toBits_ofBits (bits : UInt64) : (ofBits bits).toBits = bits := by
  have lt := bits.toNat_lt
  apply UInt64.toNat_inj.1
  simp only [ofBits, toBits, UInt64.toNat_ofNat', decide_eq_true_eq]
  split <;> omega

/-- Two numbers are equal when neither is a NaN and they are the same or both zero. -/
theorem beq_iff {x y : Binary64} :
    (x == y) = true ↔ x.isNaN = false ∧ (x = y ∨ x.magnitude = 0 ∧ y.magnitude = 0) := by
  obtain ⟨a, m, _⟩ := x
  obtain ⟨b, n, _⟩ := y
  simp only [BEq.beq, isZero, Binary64.mk.injEq]
  grind

/-- The size of a magnitude, told from its exponent bits and its fraction. -/
theorem units_eq {exponent fraction : Nat} (h : fraction < 0x10000000000000) :
    units (0x10000000000000 * exponent + fraction) =
      if exponent = 0 then fraction else (0x10000000000000 + fraction) <<< (exponent - 1) := by
  rw [units, Nat.mul_add_mod, Nat.mod_eq_of_lt h, Nat.mul_add_div (by decide),
    Nat.div_eq_of_lt h, Nat.add_zero]
  cases exponent <;> rfl

/-- The next magnitude is larger by one unit of the exponent's scale. -/
theorem units_succ (magnitude : Nat) :
    units (magnitude + 1) = units magnitude + 1 <<< (magnitude / 0x10000000000000 - 1) := by
  have hsplit := Nat.div_add_mod magnitude 0x10000000000000
  have hfraction := Nat.mod_lt magnitude (by decide : 0 < 0x10000000000000)
  generalize magnitude / 0x10000000000000 = exponent at *
  generalize magnitude % 0x10000000000000 = fraction at *
  subst hsplit
  rw [units_eq hfraction]
  by_cases hlast : fraction + 1 = 0x10000000000000
  · have hnext : 0x10000000000000 * exponent + fraction + 1 =
        0x10000000000000 * (exponent + 1) + 0 := by
      rw [Nat.add_assoc, hlast, Nat.mul_succ, Nat.add_zero]
    rw [hnext, units_eq (by decide), if_neg (Nat.succ_ne_zero exponent), Nat.add_sub_cancel]
    cases exponent with
    | zero => simp [← hlast]
    | succ exponent =>
        rw [if_neg (Nat.succ_ne_zero exponent), Nat.add_sub_cancel]
        simp only [Nat.shiftLeft_eq, Nat.pow_succ, Nat.add_zero]
        rw [← Nat.add_mul, Nat.add_assoc, hlast, ← Nat.two_mul, Nat.mul_comm 2, Nat.mul_assoc,
          Nat.mul_comm 2]
  · rw [Nat.add_assoc, units_eq (Nat.lt_of_le_of_ne hfraction hlast)]
    split
    · next hzero => simp [hzero]
    · simp only [Nat.shiftLeft_eq]
      rw [← Nat.add_mul, Nat.add_assoc]

/-- A greater magnitude has a greater size. -/
theorem units_lt_units {a b : Nat} (h : a < b) : units a < units b := by
  have hstep (magnitude : Nat) : units magnitude < units (magnitude + 1) := by
    rw [units_succ, Nat.shiftLeft_eq, Nat.one_mul]
    exact Nat.lt_add_of_pos_right (Nat.two_pow_pos _)
  induction h with
  | refl => exact hstep a
  | step _ ih => exact Nat.lt_trans ih (hstep _)

/-- Zero equals minus zero. -/
example : ofBits 0 == ofBits 0x8000000000000000 := by decide

/-- A NaN differs from itself. -/
example : (ofBits 0x7ff8000000000000 == ofBits 0x7ff8000000000000) = false := by decide

/-- One is `2 ^ 1074` units. -/
example : units 0x3ff0000000000000 = 1 <<< 1074 := by decide

end Binary64

end AtomicRules

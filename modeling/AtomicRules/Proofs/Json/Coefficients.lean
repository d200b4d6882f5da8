import AtomicRules.Json.Numeral
import AtomicRules.Text.Radix
import Mathlib.Algebra.Order.Field.Rat
import Mathlib.Tactic.Linarith
import Mathlib.Tactic.Positivity
import Mathlib.Tactic.Ring

/-!
# Coefficients of number literals

How far the coefficient and the power of ten that a literal is taken for are from its exact size.
The two agree when all digits fit into 64 bits (`parts_of_le`), and else differ by at most one part
in `2 ^ 60` (`size_within`).
-/

namespace AtomicRules

namespace Text.Radix

/-- The value of two runs of digits, one after the other. -/
theorem value_append (base : Nat) (high low : List Nat) :
    value base (high ++ low) = value base high * base ^ low.length + value base low := by
  induction low using List.reverseRecOn with
  | nil => simp [value]
  | append_singleton low digit ih =>
      rw [← List.append_assoc, value_append_singleton, value_append_singleton, ih,
        List.length_append, List.length_singleton]
      ring

/-- A run of digits has a value below the power of the base with as many places. -/
theorem value_lt {base : Nat} {digits : List Nat} (h : ∀ digit ∈ digits, digit < base) :
    value base digits < base ^ digits.length := by
  induction digits using List.reverseRecOn with
  | nil => simp [value]
  | append_singleton high digit ih =>
      have hhigh := ih fun other hother => h other (by simp [hother])
      have hdigit : digit < base := h digit (by simp)
      rw [value_append_singleton, List.length_append, List.length_singleton, Nat.pow_succ']
      calc base * value base high + digit < base * (value base high + 1) := by
            rw [Nat.mul_succ]
            omega
        _ ≤ base * base ^ high.length := Nat.mul_le_mul_left base hhigh

end Text.Radix

namespace Json.Numeral

open Text.Radix

/-- The exact size of a literal, without its sign. -/
def size (literal : Numeral) : ℚ :=
  value 10 (literal.whole ++ literal.fraction) *
    10 ^ (literal.exponent - literal.fraction.length)

/-- The size of the coefficient times the power of ten that a literal is taken for. -/
def taken (literal : Numeral) : ℚ :=
  literal.parts.1 * 10 ^ literal.parts.2

/-- The digits of a literal are decimal. -/
def IsDecimal (literal : Numeral) : Prop :=
  ∀ digit ∈ literal.whole ++ literal.fraction, digit < 10

/-- The size of a literal whose exponent moves the point behind the last digit, or further. -/
theorem size_eq {literal : Numeral} {places : Nat}
    (h : literal.exponent = literal.fraction.length + places) :
    literal.size = (value 10 (literal.whole ++ literal.fraction) * 10 ^ places : Nat) := by
  have hpower : literal.exponent - literal.fraction.length = (places : ℤ) := by omega
  rw [size, hpower, zpow_natCast]
  norm_num

/-! ## Gathering digits -/

/-- Digits are appended to the coefficient up to the first one that does not fit. -/
theorem gather_spec (before digits : List Nat) :
    ∃ kept, digits = kept ++ (gather (value 10 before) digits).2 ∧
      (gather (value 10 before) digits).1 = value 10 (before ++ kept) ∧
      ∀ next ∈ (gather (value 10 before) digits).2.head?,
        maxCoefficient < 10 * value 10 (before ++ kept) + next := by
  induction digits generalizing before with
  | nil => exact ⟨[], rfl, by simp [gather], by simp [gather]⟩
  | cons digit rest ih =>
      rw [gather]
      split
      · obtain ⟨kept, hrest, hvalue, hnext⟩ := ih (before ++ [digit])
        rw [value_append_singleton] at hrest hvalue hnext
        rw [List.append_assoc, List.singleton_append] at hvalue hnext
        exact ⟨digit :: kept, congrArg (digit :: ·) hrest, hvalue, hnext⟩
      · next h => exact ⟨[], rfl, by simp, by simpa using h⟩

/-- The digits that the coefficient of a literal has kept, and those left out. -/
theorem parts_spec (literal : Numeral) :
    ∃ whole beyond fraction dropped, literal.whole = whole ++ beyond ∧
      literal.fraction = fraction ++ dropped ∧
      literal.parts = (value 10 (whole ++ fraction),
        literal.exponent + beyond.length - fraction.length) ∧
      (∀ next ∈ beyond.head?, maxCoefficient < 10 * value 10 whole + next) ∧
      ∀ next ∈ dropped.head?, maxCoefficient < 10 * value 10 (whole ++ fraction) + next := by
  obtain ⟨whole, hwhole, hvalue, hbeyond⟩ := gather_spec [] literal.whole
  rw [List.nil_append, show value 10 [] = 0 from rfl] at hvalue hbeyond
  obtain ⟨fraction, hfraction, hcoefficient, hdropped⟩ := gather_spec whole literal.fraction
  refine ⟨whole, _, fraction, _, hwhole, hfraction, ?_, hbeyond, hdropped⟩
  have hplaces := congrArg List.length hfraction
  rw [List.length_append] at hplaces
  simp only [parts, show value 10 [] = 0 from rfl, hvalue, hcoefficient, Prod.mk.injEq, true_and]
  omega

/-- Digits with more digits after them have no smaller value. -/
theorem lt_value_append {bound next : Nat} {kept : List Nat} (others : List Nat)
    (h : bound < 10 * value 10 kept + next) : bound < value 10 (kept ++ next :: others) := by
  rw [List.append_cons, value_append, value_append_singleton]
  exact Nat.lt_of_lt_of_le h (Nat.le_add_right_of_le
    (Nat.le_mul_of_pos_right _ (Nat.pow_pos (by decide))))

/-- A literal whose digits fit into 64 bits keeps all of them. -/
theorem parts_of_le {literal : Numeral}
    (h : value 10 (literal.whole ++ literal.fraction) ≤ maxCoefficient) :
    literal.parts = (value 10 (literal.whole ++ literal.fraction),
      literal.exponent - literal.fraction.length) := by
  obtain ⟨whole, beyond, fraction, dropped, hwhole, hfraction, hparts, hbeyond, hdropped⟩ :=
    parts_spec literal
  have hbeyond : beyond = [] := by
    cases beyond with
    | nil => rfl
    | cons next others =>
        have hlt := lt_value_append (others ++ literal.fraction) (hbeyond next rfl)
        rw [hwhole, List.append_assoc, List.cons_append] at h
        omega
  subst hbeyond
  rw [List.append_nil] at hwhole
  have hdropped : dropped = [] := by
    cases dropped with
    | nil => rfl
    | cons next others =>
        have hlt := lt_value_append others (hdropped next rfl)
        rw [hwhole, hfraction, ← List.append_assoc] at h
        omega
  subst hdropped
  rw [List.append_nil] at hfraction
  rw [hparts, hwhole, hfraction]
  simp

/-! ## The size that is left -/

/-- Digits with more digits after them, taken for a part before the point and one after it. -/
theorem value_append_mul (kept : List Nat) {rest : List Nat} (hrest : ∀ digit ∈ rest, digit < 10)
    (power : ℤ) :
    (value 10 kept : ℚ) * 10 ^ power ≤ value 10 (kept ++ rest) * 10 ^ (power - rest.length) ∧
      value 10 (kept ++ rest) * 10 ^ (power - rest.length) ≤
        ((value 10 kept : ℚ) + 1) * 10 ^ power := by
  have hscale : (10 : ℚ) ^ power = 10 ^ rest.length * 10 ^ (power - rest.length) := by
    rw [← zpow_natCast, ← zpow_add₀ (by norm_num)]
    congr 1
    ring
  have hunit : (0 : ℚ) < 10 ^ (power - rest.length) := zpow_pos (by norm_num) _
  have hvalue := value_append 10 kept rest
  have hlt := value_lt hrest
  rw [hscale, ← mul_assoc, ← mul_assoc]
  constructor
  · refine mul_le_mul_of_nonneg_right ?_ hunit.le
    exact_mod_cast hvalue ▸ Nat.le_add_right _ _
  · refine mul_le_mul_of_nonneg_right ?_ hunit.le
    rw [add_mul, one_mul]
    exact_mod_cast hvalue ▸ Nat.add_le_add_left hlt.le _

/-- Two ways to go on after digits that have sixty bits give sizes that differ by at most one part
in `2 ^ 60`. -/
theorem within_of_kept {kept first second : List Nat} (hkept : 2 ^ 60 ≤ value 10 kept)
    (hfirst : ∀ digit ∈ first, digit < 10) (hsecond : ∀ digit ∈ second, digit < 10) (power : ℤ) :
    2 ^ 60 * (value 10 (kept ++ first) * 10 ^ (power - first.length) : ℚ) ≤
      (2 ^ 60 + 1) * (value 10 (kept ++ second) * 10 ^ (power - second.length)) := by
  have hunit : (0 : ℚ) ≤ 10 ^ power := (zpow_pos (by norm_num) _).le
  have hcount : (2 ^ 60 : ℚ) ≤ value 10 kept := by exact_mod_cast hkept
  have hlarge := mul_le_mul_of_nonneg_right hcount hunit
  have hupper := (value_append_mul kept hfirst power).2
  have hlower := (value_append_mul kept hsecond power).1
  linarith

/-- A coefficient that a decimal digit does not fit after has sixty bits. -/
theorem le_of_lt_add {coefficient next : Nat} (hnext : next < 10)
    (h : maxCoefficient < 10 * coefficient + next) : 2 ^ 60 ≤ coefficient := by
  unfold maxCoefficient at h
  omega

/-- The size that a literal is taken for and its exact size differ by at most one part in
`2 ^ 60`. -/
theorem size_within {literal : Numeral} (hdecimal : literal.IsDecimal) :
    2 ^ 60 * literal.taken ≤ (2 ^ 60 + 1) * literal.size ∧
      2 ^ 60 * literal.size ≤ (2 ^ 60 + 1) * literal.taken := by
  obtain ⟨whole, beyond, fraction, dropped, hwhole, hfraction, hparts, hbeyond, hdropped⟩ :=
    parts_spec literal
  simp only [IsDecimal, hwhole, hfraction, List.mem_append] at hdecimal
  have hsize : literal.size = value 10 (whole ++ beyond ++ (fraction ++ dropped)) *
      10 ^ (literal.exponent - (fraction.length + dropped.length)) := by
    rw [size, hwhole, hfraction, List.length_append, Nat.cast_add]
  have htaken : literal.taken = value 10 (whole ++ fraction) *
      10 ^ (literal.exponent + beyond.length - fraction.length) := by
    rw [taken, hparts]
  rw [hsize, htaken]
  cases beyond with
  | cons next others =>
      -- digits are left out before the point, and both sizes go on after the ones that are kept
      have hkept := le_of_lt_add (hdecimal next (by simp)) (hbeyond next rfl)
      have hfirst : ∀ digit ∈ fraction, digit < 10 := fun digit h => hdecimal digit (by simp [h])
      have hsecond : ∀ digit ∈ next :: others ++ (fraction ++ dropped), digit < 10 :=
        fun digit h => hdecimal digit (by simp only [List.mem_append] at h; tauto)
      have hpower : literal.exponent - (fraction.length + dropped.length : ℤ) =
          literal.exponent + (next :: others).length -
            (next :: others ++ (fraction ++ dropped)).length := by
        simp only [List.length_append, Nat.cast_add]
        ring
      rw [List.append_assoc, hpower]
      exact ⟨within_of_kept hkept hfirst hsecond _, within_of_kept hkept hsecond hfirst _⟩
  | nil =>
      -- digits are left out after the point only, if at all
      have htaken : (value 10 (whole ++ fraction) : ℚ) *
          10 ^ (literal.exponent + (0 : ℕ) - fraction.length) = value 10 (whole ++ fraction ++ []) *
            10 ^ (literal.exponent - fraction.length - ([] : List Nat).length) := by simp
      have hpower : literal.exponent - (fraction.length + dropped.length : ℤ) =
          literal.exponent - fraction.length - dropped.length := by ring
      rw [List.append_nil, ← List.append_assoc, List.length_nil, htaken, hpower]
      cases dropped with
      | nil =>
          have hnonneg : (0 : ℚ) ≤ value 10 (whole ++ fraction ++ []) *
              10 ^ (literal.exponent - fraction.length - ([] : List Nat).length) :=
            mul_nonneg (Nat.cast_nonneg _) (zpow_pos (by norm_num) _).le
          constructor <;> linarith
      | cons next others =>
          have hkept := le_of_lt_add (hdecimal next (by simp)) (hdropped next rfl)
          have hsecond : ∀ digit ∈ next :: others, digit < 10 :=
            fun digit h => hdecimal digit (by tauto)
          exact ⟨within_of_kept hkept (by simp) hsecond _, within_of_kept hkept hsecond (by simp) _⟩

end Json.Numeral

end AtomicRules

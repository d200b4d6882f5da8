import AtomicRules.Proofs.Json.Coefficients
import AtomicRules.Proofs.Rounding

/-!
# Number literals that are too large

When a literal has no binary64 number. The rule is on rounded factors (`toBinary64?_eq_none_iff`),
and agrees with the exact size of the literal (`overflows_of_le`, `not_overflows_of_lt`) except for
sizes within one part in `2 ^ 51` of the midpoint between the largest number and the next power of
two.
-/

namespace AtomicRules

namespace Binary64

/-- The midpoint between the largest number and the power of two that would come next, from which
on a size is rounded to infinity. -/
def limit : Nat := (2 ^ 54 - 1) * 2 ^ 970

/-- The binary64 number nearest to a natural number. -/
def rounded (n : Nat) : ℚ :=
  units (nearest n 1) / 2 ^ 1074

/-- Zero is rounded to zero. -/
theorem rounded_zero : rounded 0 = 0 := by
  have hunits : units (nearest 0 1) = 0 := by decide
  rw [rounded, hunits, Nat.cast_zero, zero_div]

theorem limit_pos : (0 : ℚ) < limit := by
  have hpos (bits : Nat) : 0 < (2 ^ 54 - 1) * 2 ^ bits :=
    Nat.mul_pos (by decide) (Nat.two_pow_pos bits)
  exact_mod_cast hpos 970

/-- A natural number is rounded to a finite number below the midpoint. -/
theorem nearest_one_lt_iff (n : Nat) : nearest n 1 < infinity ↔ n < limit := by
  have hiff : nearest n 1 = infinity ↔ limit ≤ n := by
    rw [nearest_eq_infinity_iff (by decide), Nat.mul_one, limit]
  have hle := nearest_le_infinity n 1
  omega

/-- Rounding changes a natural number by at most one part in `2 ^ 53`. -/
theorem rounded_within {n : Nat} (h : n < limit) :
    (2 ^ 53 - 1) * n ≤ 2 ^ 53 * rounded n ∧ 2 ^ 53 * rounded n ≤ (2 ^ 53 + 1) * n := by
  rcases Nat.eq_zero_or_pos n with rfl | hpos
  · rw [rounded_zero]
    norm_num
  · have hnormal (bits places : Nat) (hle : bits ≤ places) : 2 ^ bits ≤ n <<< places := by
      rw [Nat.shiftLeft_eq]
      exact Nat.le_trans (Nat.pow_le_pow_right (by decide) hle) (Nat.le_mul_of_pos_left _ hpos)
    obtain ⟨hupper, hlower⟩ := units_nearest_within (by decide) ((nearest_one_lt_iff n).2 h)
      (hnormal 52 1074 (by decide))
    rw [Nat.mul_one, Nat.shiftLeft_eq] at hupper hlower
    rw [rounded]
    -- the exponent is kept as a variable, so that no large power is computed
    generalize 1074 = places at hupper hlower ⊢
    have hscale : (0 : ℚ) < 2 ^ places := by positivity
    have hbits : (2 ^ 53 - 1 : ℚ) = (2 ^ 53 - 1 : Nat) := by norm_num
    rw [← mul_div_assoc, le_div_iff₀ hscale, div_le_iff₀ hscale, hbits, mul_assoc, mul_assoc]
    exact ⟨by exact_mod_cast hlower, by exact_mod_cast hupper⟩

/-- The unit of a product of two sizes is the product of their units. -/
theorem one_shiftLeft_add (places : Nat) :
    1 <<< (places + places) = 1 <<< places * 1 <<< places := by
  simp only [Nat.one_shiftLeft, Nat.pow_add]

theorem one_shiftLeft_pos (places : Nat) : 0 < 1 <<< places := by
  rw [Nat.one_shiftLeft]
  exact Nat.two_pow_pos places

/-- A product of rounded factors is too large for the format from the midpoint on. -/
theorem product_eq_infinity_iff (m n : Nat) :
    product (nearest m 1) (nearest n 1) = infinity ↔ (limit : ℚ) ≤ rounded m * rounded n := by
  rw [product, nearest_eq_infinity_iff (one_shiftLeft_pos 2148), ← limit, one_shiftLeft_add 1074,
    Nat.one_shiftLeft, rounded, rounded]
  generalize 1074 = places
  have hscale : (0 : ℚ) < 2 ^ places * 2 ^ places := by positivity
  rw [div_mul_div_comm, le_div_iff₀ hscale]
  exact_mod_cast Iff.rfl

/-- A power of ten is finite below the midpoint. -/
theorem powerOfTen_lt_iff (exponent : Nat) :
    powerOfTen exponent < infinity ↔ 10 ^ exponent < limit :=
  nearest_one_lt_iff _

/-- The powers of ten are finite up to the largest exponent. -/
theorem ten_pow_lt_limit {exponent : Nat} (h : exponent ≤ maxPower) : 10 ^ exponent < limit := by
  have hfinite : powerOfTen maxPower < infinity := by decide +kernel
  rw [powerOfTen_lt_iff] at hfinite
  exact Nat.lt_of_le_of_lt (Nat.pow_le_pow_right (by decide) h) hfinite

/-- The powers of ten are too large from the next exponent on. -/
theorem limit_le_ten_pow {exponent : Nat} (h : maxPower < exponent) : limit ≤ 10 ^ exponent := by
  have hinfinite : ¬powerOfTen (maxPower + 1) < infinity := by decide +kernel
  rw [powerOfTen_lt_iff, Nat.not_lt] at hinfinite
  exact Nat.le_trans hinfinite (Nat.pow_le_pow_right (by decide) h)

/-- No number but zero is rounded to zero. -/
theorem nearest_one_eq_zero_iff (n : Nat) : nearest n 1 = 0 ↔ n = 0 := by
  constructor
  · intro hzero
    have hlt : n < limit := by
      rw [← nearest_one_lt_iff, hzero]
      decide
    have hrounded : rounded n = 0 := by
      have hunits : units 0 = 0 := by decide
      rw [rounded, hzero, hunits, Nat.cast_zero, zero_div]
    have hlower := (rounded_within hlt).1
    rw [hrounded] at hlower
    have hle : (n : ℚ) ≤ 0 := by linarith
    exact_mod_cast hle.antisymm (Nat.cast_nonneg n)
  · rintro rfl
    decide

/-- The product of two rounded factors differs from the exact one by at most two parts in `2 ^ 53`,
and what those multiply to. -/
theorem rounded_mul_within {m n : Nat} (hm : m < limit) (hn : n < limit) :
    (2 ^ 53 - 1) ^ 2 * ((m : ℚ) * n) ≤ 2 ^ 106 * (rounded m * rounded n) ∧
      2 ^ 106 * (rounded m * rounded n) ≤ (2 ^ 53 + 1) ^ 2 * ((m : ℚ) * n) := by
  obtain ⟨hmLower, hmUpper⟩ := rounded_within hm
  obtain ⟨hnLower, hnUpper⟩ := rounded_within hn
  have hmNonneg : (0 : ℚ) ≤ (2 ^ 53 - 1) * m := mul_nonneg (by norm_num) (Nat.cast_nonneg m)
  have hnNonneg : (0 : ℚ) ≤ (2 ^ 53 - 1) * n := mul_nonneg (by norm_num) (Nat.cast_nonneg n)
  have hlower := mul_le_mul hmLower hnLower hnNonneg (hmNonneg.trans hmLower)
  have hupper := mul_le_mul hmUpper hnUpper (hnNonneg.trans hnLower)
    ((hmNonneg.trans hmLower).trans hmUpper)
  constructor <;> linarith

end Binary64

namespace Json.Numeral

open Binary64

/-- The literal is too large: its coefficient is not zero, and the rounded coefficient times the
rounded power of ten reaches the midpoint above the largest number. -/
def Overflows (literal : Numeral) : Prop :=
  literal.parts.1 ≠ 0 ∧ 0 ≤ literal.parts.2 ∧
    (maxPower < literal.parts.2.toNat ∨
      (limit : ℚ) ≤ rounded literal.parts.1 * rounded (10 ^ literal.parts.2.toNat))

/-- A coefficient times a power of ten from zero up is too large for the format by the rule on
rounded factors. -/
theorem scaleUp_eq_none_iff (coefficient exponent : Nat) :
    scaleUp (nearest coefficient 1) exponent = none ↔
      coefficient ≠ 0 ∧ (maxPower < exponent ∨
        (limit : ℚ) ≤ rounded coefficient * rounded (10 ^ exponent)) := by
  unfold scaleUp
  split
  · next hle =>
      have hproduct : product (nearest coefficient 1) (powerOfTen exponent) = infinity ↔
          (limit : ℚ) ≤ rounded coefficient * rounded (10 ^ exponent) :=
        product_eq_infinity_iff coefficient (10 ^ exponent)
      have hinfinite : product (nearest coefficient 1) (powerOfTen exponent) ≤ infinity :=
        nearest_le_infinity _ _
      have hnone : (some (product (nearest coefficient 1) (powerOfTen exponent))).filter
          (· < infinity) = none ↔
            product (nearest coefficient 1) (powerOfTen exponent) = infinity := by
        simp only [Option.filter_eq_none_iff, Option.some.injEq, forall_eq', decide_eq_true_eq]
        omega
      rw [hnone, hproduct]
      constructor
      · refine fun h => ⟨?_, .inr h⟩
        -- the midpoint is not below zero times anything
        rintro rfl
        rw [rounded_zero, zero_mul] at h
        exact absurd limit_pos (not_lt.2 h)
      · rintro ⟨-, hlt | h⟩
        · omega
        · exact h
  · next hgt =>
      by_cases hzero : nearest coefficient 1 = 0
      · rw [if_pos hzero]
        exact ⟨(nomatch ·), fun h => absurd ((nearest_one_eq_zero_iff _).1 hzero) h.1⟩
      · rw [if_neg hzero]
        exact ⟨fun _ => ⟨mt (nearest_one_eq_zero_iff _).2 hzero, .inl (Nat.not_le.1 hgt)⟩,
          fun _ => rfl⟩

/-- The coefficient of a literal is finite. -/
theorem parts_fst_lt (literal : Numeral) : literal.parts.1 < limit := by
  have hle : literal.parts.1 ≤ maxCoefficient :=
    gather_le _ (gather_le _ (Nat.zero_le maxCoefficient))
  have hfinite : nearest maxCoefficient 1 < infinity := by decide +kernel
  exact Nat.lt_of_le_of_lt hle ((nearest_one_lt_iff _).1 hfinite)

/-- A literal has a binary64 number unless it is too large. -/
theorem toBinary64?_eq_none_iff (literal : Numeral) :
    literal.toBinary64? = none ↔ literal.Overflows := by
  have hscaled : literal.toBinary64? = none ↔ scaled literal.parts.1 literal.parts.2 = none := by
    unfold toBinary64?
    split <;> simp [*]
  rw [hscaled, Overflows]
  cases literal.parts.2 with
  | ofNat exponent =>
      exact (scaleUp_eq_none_iff literal.parts.1 exponent).trans
        (and_congr_right fun _ => (and_iff_right (Int.natCast_nonneg exponent)).symm)
  | negSucc exponent =>
      exact ⟨fun h => absurd h (Option.some_ne_none _),
        fun h => absurd h.2.1 (Int.not_le.2 (Int.negSucc_lt_zero exponent))⟩

/-- The size that a literal is taken for, by the sign of its power of ten. -/
theorem taken_cases (literal : Numeral) :
    (literal.parts.2 < 0 ∧ literal.taken ≤ literal.parts.1) ∨
      (0 ≤ literal.parts.2 ∧
        literal.taken = literal.parts.1 * (10 ^ literal.parts.2.toNat : Nat)) := by
  rw [taken]
  rcases lt_or_ge literal.parts.2 0 with hnegative | hexponent
  · have hone : (10 : ℚ) ^ literal.parts.2 ≤ 1 :=
      zpow_le_one_of_nonpos₀ (by norm_num) hnegative.le
    exact .inl ⟨hnegative, mul_le_of_le_one_right (Nat.cast_nonneg _) hone⟩
  · refine .inr ⟨hexponent, ?_⟩
    rw [Nat.cast_pow, ← zpow_natCast, Int.toNat_of_nonneg hexponent]
    norm_num

/-- The exact size of a literal against the midpoint, told by rounding it as a whole. -/
theorem size_lt_limit_iff {literal : Numeral} {places : Nat}
    (h : literal.exponent = literal.fraction.length + places) :
    literal.size < limit ↔
      nearest (Text.Radix.value 10 (literal.whole ++ literal.fraction) * 10 ^ places) 1 <
        infinity := by
  rw [size_eq h, nearest_one_lt_iff]
  exact Nat.cast_lt

/-- A literal is too large from one part in `2 ^ 51` above the midpoint on. -/
theorem overflows_of_le {literal : Numeral} (hdecimal : literal.IsDecimal)
    (h : (2 ^ 51 + 1) * (limit : ℚ) ≤ 2 ^ 51 * literal.size) : literal.Overflows := by
  have hpos := limit_pos
  have hsize := (size_within hdecimal).2
  have hcoefficient : (literal.parts.1 : ℚ) < limit := by exact_mod_cast parts_fst_lt literal
  rcases taken_cases literal with ⟨-, hle⟩ | ⟨hexponent, heq⟩
  · -- a coefficient alone stays below the midpoint
    linarith
  · refine ⟨?_, hexponent, ?_⟩
    · intro hzero
      rw [heq, hzero, Nat.cast_zero, zero_mul] at hsize
      linarith
    · by_cases hpower : maxPower < literal.parts.2.toNat
      · exact .inl hpower
      · refine .inr ?_
        have hproduct := (rounded_mul_within (parts_fst_lt literal)
          (ten_pow_lt_limit (Nat.not_lt.1 hpower))).1
        rw [← heq] at hproduct
        linarith

/-- A literal is not too large up to one part in `2 ^ 51` below the midpoint. -/
theorem not_overflows_of_lt {literal : Numeral} (hdecimal : literal.IsDecimal)
    (h : 2 ^ 51 * literal.size < (2 ^ 51 - 1) * (limit : ℚ)) : ¬literal.Overflows := by
  rintro ⟨hcoefficient, hexponent, hlarge⟩
  have hpos := limit_pos
  have hsize := (size_within hdecimal).1
  rcases taken_cases literal with ⟨hnegative, -⟩ | ⟨-, heq⟩
  · omega
  · by_cases hpower : maxPower < literal.parts.2.toNat
    · -- beyond the largest exponent already the coefficient one is too large
      have hge : (limit : ℚ) ≤ literal.taken := by
        rw [heq]
        exact_mod_cast Nat.le_trans (limit_le_ten_pow hpower)
          (Nat.le_mul_of_pos_left _ (Nat.pos_of_ne_zero hcoefficient))
      linarith
    · have hproduct := (rounded_mul_within (parts_fst_lt literal)
        (ten_pow_lt_limit (Nat.not_lt.1 hpower))).2
      rw [← heq] at hproduct
      have hge := hlarge.resolve_left hpower
      linarith

end Json.Numeral

end AtomicRules

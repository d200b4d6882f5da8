import AtomicRules.Binary64.Rounding
import Mathlib.Tactic.Linarith
import Mathlib.Tactic.Ring

/-!
# Facts on rounding

What `nearest` gives, in terms of the significand that is rounded and the exponent it is rounded
at. A finite number is its own nearest one (`nearest_units`), a ratio is too large for the format
exactly from the midpoint above the largest number on (`nearest_eq_infinity_iff`), and from the
smallest normal number up rounding changes a ratio by at most one part in `2 ^ 53`
(`units_nearest_within`).
-/

namespace AtomicRules.Binary64

/-! ## Rounding to a natural number -/

/-- A ratio is rounded to its floor or to the number after it. -/
theorem roundHalfEven_floor (num den : Nat) :
    num / den ≤ roundHalfEven num den ∧ roundHalfEven num den ≤ num / den + 1 := by
  unfold roundHalfEven
  dsimp only
  split
  · omega
  · split <;> omega

/-- Rounding depends on the ratio alone. -/
theorem roundHalfEven_mul_right {factor : Nat} (hfactor : 0 < factor) (num den : Nat) :
    roundHalfEven (num * factor) (den * factor) = roundHalfEven num den := by
  have hdouble : 2 * (num % den * factor) = 2 * (num % den) * factor := by
    rw [Nat.mul_assoc]
  have hbelow : 2 * (num % den) * factor < den * factor ↔ 2 * (num % den) < den :=
    Nat.mul_lt_mul_right hfactor
  have habove : den * factor < 2 * (num % den) * factor ↔ den < 2 * (num % den) :=
    Nat.mul_lt_mul_right hfactor
  unfold roundHalfEven
  dsimp only
  rw [Nat.mul_div_mul_right _ _ hfactor, Nat.mul_mod_mul_right]
  simp only [hdouble, hbelow, habove]

/-- A natural number stays as it is. -/
theorem roundHalfEven_mul_self {den : Nat} (hden : 0 < den) (n : Nat) :
    roundHalfEven (n * den) den = n := by
  unfold roundHalfEven
  rw [Nat.mul_mod_left, Nat.mul_div_cancel n hden, if_pos (by omega)]

/-- From the midpoint below an even number on, a ratio is not rounded below this number. -/
theorem le_roundHalfEven {num den bound : Nat} (hden : 0 < den) (heven : bound % 2 = 0)
    (h : 2 * bound * den ≤ 2 * num + den) : bound ≤ roundHalfEven num den := by
  have hsplit := Nat.div_add_mod num den
  have hmod := Nat.mod_lt num hden
  rcases Nat.lt_or_ge (num / den) bound with hlt | hge
  · have hfloor : bound = num / den + 1 := by
      have hupper : 2 * bound * den < (2 * (num / den) + 3) * den := by
        calc 2 * bound * den ≤ 2 * num + den := h
          _ = 2 * (den * (num / den) + num % den) + den := by rw [hsplit]
          _ < (2 * (num / den) + 3) * den := by linarith
      have hdouble := Nat.lt_of_mul_lt_mul_right hupper
      omega
    have hhalf : den ≤ 2 * (num % den) := by
      rw [hfloor] at h
      linarith
    unfold roundHalfEven
    dsimp only
    rw [if_neg (by omega)]
    split <;> omega
  · exact Nat.le_trans hge (roundHalfEven_floor num den).1

/-- Below the midpoint before a number, a ratio is rounded below this number. -/
theorem roundHalfEven_lt {num den bound : Nat} (hden : 0 < den)
    (h : 2 * num + den < 2 * bound * den) : roundHalfEven num den < bound := by
  have hwithin := (@roundHalfEven_within num den hden).2
  have hlt : 2 * roundHalfEven num den * den < 2 * bound * den := by omega
  have hdouble := Nat.lt_of_mul_lt_mul_right hlt
  omega

/-! ## Exponent and significand -/

/-- The halvings that leave 53 bits of a ratio before the point. -/
def halvings (num den : Nat) : Nat :=
  (num <<< 1074 / den).log2 - 52

/-- The significand that a ratio is rounded to. -/
def significand (num den : Nat) : Nat :=
  roundHalfEven (num <<< 1074) (den * 2 ^ halvings num den)

/-- The nearest magnitude, from its exponent and its significand. -/
theorem nearest_eq (num den : Nat) :
    nearest num den = min (halvings num den * 2 ^ 52 + significand num den) infinity := by
  rw [significand, ← Nat.shiftLeft_eq, ← Nat.shiftLeft_eq]
  rfl

/-- The ratio lies below the power of two with 53 more bits than there are halvings, and not below
half of it unless there are none. -/
theorem halvings_spec {num den : Nat} (hden : 0 < den) :
    num <<< 1074 < den * 2 ^ (halvings num den + 53) ∧
      (halvings num den = 0 ∨ den * 2 ^ (halvings num den + 52) ≤ num <<< 1074) := by
  unfold halvings
  generalize num <<< 1074 = scaled
  have hupper : scaled / den < 2 ^ ((scaled / den).log2 - 52 + 53) := by
    refine Nat.lt_of_lt_of_le Nat.lt_log2_self (Nat.pow_le_pow_right (by decide) (by omega))
  constructor
  · have hsplit := Nat.div_add_mod scaled den
    have hmod := Nat.mod_lt scaled hden
    have hnext := Nat.mul_le_mul_left den (Nat.succ_le_of_lt hupper)
    rw [Nat.mul_succ] at hnext
    omega
  · rcases Nat.eq_zero_or_pos ((scaled / den).log2 - 52) with hzero | hpos
    · exact .inl hzero
    · right
      have hne : scaled / den ≠ 0 := by
        intro hzero
        simp [hzero] at hpos
      have hlog : (scaled / den).log2 - 52 + 52 = (scaled / den).log2 := by omega
      rw [hlog, Nat.mul_comm]
      exact (Nat.le_div_iff_mul_le hden).1 (Nat.log2_self_le hne)

/-- A significand has at most 53 bits, or is the power of two that comes next. -/
theorem significand_le {num den : Nat} (hden : 0 < den) : significand num den ≤ 2 ^ 53 := by
  obtain ⟨hupper, -⟩ := @halvings_spec num den hden
  have hunit : 0 < den * 2 ^ halvings num den := Nat.mul_pos hden (Nat.two_pow_pos _)
  have hfloor : num <<< 1074 / (den * 2 ^ halvings num den) < 2 ^ 53 := by
    rw [Nat.div_lt_iff_lt_mul hunit, Nat.mul_left_comm, ← Nat.pow_add, Nat.add_comm 53]
    exact hupper
  have hround := (roundHalfEven_floor (num <<< 1074) (den * 2 ^ halvings num den)).2
  unfold significand
  omega

/-- Unless there are no halvings, a significand has its 53rd bit. -/
theorem le_significand {num den : Nat} (hden : 0 < den) (hpos : halvings num den ≠ 0) :
    2 ^ 52 ≤ significand num den := by
  obtain ⟨-, hzero | hlower⟩ := @halvings_spec num den hden
  · exact absurd hzero hpos
  · have hunit : 0 < den * 2 ^ halvings num den := Nat.mul_pos hden (Nat.two_pow_pos _)
    refine Nat.le_trans ?_ (roundHalfEven_floor _ _).1
    rw [Nat.le_div_iff_mul_le hunit, Nat.mul_left_comm, ← Nat.pow_add, Nat.add_comm 52]
    exact hlower

/-- A significand has its 53rd bit, or there are no halvings. -/
theorem halvings_eq_zero_or {num den : Nat} (hden : 0 < den) :
    halvings num den = 0 ∨ 2 ^ 52 ≤ significand num den := by
  by_cases hzero : halvings num den = 0
  · exact .inl hzero
  · exact .inr (le_significand hden hzero)

/-- A magnitude is put together from an exponent and a significand. Where the significand has no
53rd bit the exponent has to be zero. -/
theorem units_mul_add {exponent significand : Nat} (hle : significand ≤ 2 ^ 53)
    (hge : exponent = 0 ∨ 2 ^ 52 ≤ significand) :
    units (exponent * 2 ^ 52 + significand) = significand * 2 ^ exponent := by
  have hbit : (0x10000000000000 : Nat) = 2 ^ 52 := by norm_num
  rcases Nat.lt_or_ge significand (2 ^ 52) with hsmall | hlarge
  · obtain rfl : exponent = 0 := by omega
    have h := @units_eq 0 significand (by omega)
    simpa using h
  · rcases Nat.lt_or_eq_of_le hle with hlt | rfl
    · -- the 53rd bit is the first one of the exponent field
      have h := @units_eq (exponent + 1) (significand - 2 ^ 52) (by omega)
      rw [if_neg (by omega), Nat.add_sub_cancel, Nat.shiftLeft_eq, hbit,
        Nat.add_sub_cancel' hlarge] at h
      rw [← h]
      exact congrArg units (by omega)
    · have h := @units_eq (exponent + 2) 0 (by decide)
      rw [if_neg (by omega), Nat.shiftLeft_eq, hbit] at h
      have hnext : exponent * 2 ^ 52 + 2 ^ 53 = 2 ^ 52 * (exponent + 2) + 0 := by omega
      rw [hnext, h, Nat.add_zero, show exponent + 2 - 1 = exponent + 1 by omega, Nat.pow_succ]
      omega

/-! ## Finite magnitudes -/

/-- The nearest magnitude depends on the ratio alone. -/
theorem nearest_mul_right {factor : Nat} (hfactor : 0 < factor) (num den : Nat) :
    nearest (num * factor) (den * factor) = nearest num den := by
  have hshift : (num * factor) <<< 1074 = num <<< 1074 * factor := by
    rw [Nat.shiftLeft_eq, Nat.shiftLeft_eq, Nat.mul_right_comm]
  have hhalvings : halvings (num * factor) (den * factor) = halvings num den := by
    rw [halvings, hshift, Nat.mul_div_mul_right _ _ hfactor, halvings]
  rw [nearest_eq, nearest_eq, significand, hhalvings, hshift, Nat.mul_right_comm den,
    roundHalfEven_mul_right hfactor, significand]

/-- Every magnitude is an exponent and a significand that rounding leaves alone. -/
theorem exists_eq_mul_add (magnitude : Nat) :
    ∃ exponent significand, magnitude = exponent * 2 ^ 52 + significand ∧
      significand < 2 ^ 53 ∧ (exponent = 0 ∨ 2 ^ 52 ≤ significand) := by
  rcases Nat.lt_or_ge magnitude (2 ^ 52) with hsmall | hlarge
  · exact ⟨0, magnitude, by omega, by omega, .inl rfl⟩
  · exact ⟨magnitude / 2 ^ 52 - 1, magnitude % 2 ^ 52 + 2 ^ 52, by omega, by omega, by omega⟩

/-- A finite magnitude is the nearest one to its own size. -/
theorem nearest_units {magnitude : Nat} (h : magnitude ≤ infinity) :
    nearest (units magnitude) (1 <<< 1074) = magnitude := by
  obtain ⟨exponent, bits, rfl, hlt, hge⟩ := exists_eq_mul_add magnitude
  have hunits := units_mul_add (Nat.le_of_lt hlt) hge
  have hdiv : (bits * 2 ^ exponent) <<< 1074 / 1 <<< 1074 = bits * 2 ^ exponent := by
    rw [Nat.shiftLeft_eq, Nat.one_shiftLeft]
    exact Nat.mul_div_cancel _ (Nat.two_pow_pos 1074)
  have hhalvings : halvings (bits * 2 ^ exponent) (1 <<< 1074) = exponent := by
    rw [halvings, hdiv]
    rcases hge with rfl | hge
    · have hlog : bits.log2 < 53 := by
        rcases Nat.eq_zero_or_pos bits with rfl | hpos
        · decide
        · exact (Nat.log2_lt (by omega)).2 hlt
      rw [Nat.pow_zero, Nat.mul_one]
      omega
    · have hlog : (bits * 2 ^ exponent).log2 = 52 + exponent := by
        rw [Nat.log2_eq_iff (by positivity), Nat.pow_add, Nat.add_right_comm, Nat.pow_add]
        exact ⟨Nat.mul_le_mul_right _ hge, Nat.mul_lt_mul_of_pos_right hlt (Nat.two_pow_pos _)⟩
      omega
  have hsignificand : significand (bits * 2 ^ exponent) (1 <<< 1074) = bits := by
    rw [significand, hhalvings, Nat.shiftLeft_eq, Nat.one_shiftLeft, Nat.mul_assoc,
      Nat.mul_comm (2 ^ exponent)]
    exact roundHalfEven_mul_self (by positivity) bits
  rw [hunits, nearest_eq, hhalvings, hsignificand]
  exact Nat.min_eq_left h

/-! ## Large magnitudes -/

/-- A magnitude reaches an exponent by its halvings, or by one less and a significand that is
rounded up to the next power of two. -/
theorem le_exponent_iff {num den : Nat} (hden : 0 < den) (top : Nat) :
    (top + 2) * 2 ^ 52 ≤ halvings num den * 2 ^ 52 + significand num den ↔
      (2 ^ 54 - 1) * (den * 2 ^ top) ≤ 2 * num <<< 1074 := by
  have hle := @significand_le num den hden
  obtain ⟨hupper, hlower⟩ := @halvings_spec num den hden
  have hunit : 0 < den * 2 ^ top := Nat.mul_pos hden (Nat.two_pow_pos _)
  have hshift (places : Nat) : den * 2 ^ (top + places) = 2 ^ places * (den * 2 ^ top) := by
    rw [Nat.pow_add, ← Nat.mul_assoc, Nat.mul_comm]
  constructor
  · intro hreached
    by_contra hsmall
    rw [Nat.not_le] at hsmall
    have hhalvings : halvings num den ≤ top := by
      rcases hlower with hzero | hlower
      · omega
      · have hbelow : den * 2 ^ (halvings num den + 52) < den * 2 ^ (top + 53) := by
          rw [hshift]
          omega
        have hexponent := Nat.lt_of_mul_lt_mul_left hbelow
        rw [Nat.pow_lt_pow_iff_right (by decide)] at hexponent
        omega
    rcases Nat.lt_or_eq_of_le hhalvings with hlt | heq
    · omega
    · have hround : significand num den < 2 ^ 53 := by
        rw [significand, heq]
        exact roundHalfEven_lt hunit (by omega)
      omega
  · intro hlarge
    have hhalvings : top ≤ halvings num den := by
      have habove : den * 2 ^ (top + 52) < den * 2 ^ (halvings num den + 53) := by
        rw [hshift]
        omega
      have hexponent := Nat.lt_of_mul_lt_mul_left habove
      rw [Nat.pow_lt_pow_iff_right (by decide)] at hexponent
      omega
    rcases Nat.lt_or_eq_of_le hhalvings with hlt | heq
    · have hbits := @le_significand num den hden (by omega)
      omega
    · have hround : 2 ^ 53 ≤ significand num den := by
        rw [significand, ← heq]
        exact le_roundHalfEven hunit (by decide) (by omega)
      omega

/-- A ratio is too large for the format from the midpoint between the largest number and the next
power of two on. -/
theorem nearest_eq_infinity_iff {num den : Nat} (hden : 0 < den) :
    nearest num den = infinity ↔ (2 ^ 54 - 1) * 2 ^ 970 * den ≤ num := by
  have hinfinity : infinity = (970 + 1074 + 1 + 2) * 2 ^ 52 := by decide
  -- the exponents are kept as variables, so that no large power is computed
  have hscale (bits places : Nat) :
      (2 ^ 54 - 1) * (den * 2 ^ (bits + places + 1)) ≤ 2 * num <<< places ↔
        (2 ^ 54 - 1) * 2 ^ bits * den ≤ num := by
    have hpow : (2 ^ 54 - 1) * (den * 2 ^ (bits + places + 1)) =
        2 * ((2 ^ 54 - 1) * 2 ^ bits * den * 2 ^ places) := by ring
    rw [hpow, Nat.shiftLeft_eq, Nat.mul_le_mul_left_iff (by decide)]
    exact Nat.mul_le_mul_right_iff (Nat.two_pow_pos places)
  rw [nearest_eq, hinfinity, min_eq_right_iff, le_exponent_iff hden, hscale]

/-- From the smallest normal number up, a ratio and the size of its nearest magnitude differ by at
most one part in `2 ^ 53`. -/
theorem units_nearest_within {num den : Nat} (hden : 0 < den)
    (hfinite : nearest num den < infinity) (hnormal : 2 ^ 52 * den ≤ num <<< 1074) :
    2 ^ 53 * (units (nearest num den) * den) ≤ (2 ^ 53 + 1) * num <<< 1074 ∧
      (2 ^ 53 - 1) * num <<< 1074 ≤ 2 ^ 53 * (units (nearest num den) * den) := by
  have hnearest : nearest num den = halvings num den * 2 ^ 52 + significand num den := by
    rw [nearest_eq] at hfinite ⊢
    omega
  have hunits : units (nearest num den) = significand num den * 2 ^ halvings num den := by
    rw [hnearest]
    exact units_mul_add (significand_le hden) (halvings_eq_zero_or hden)
  have hunit : 0 < den * 2 ^ halvings num den := Nat.mul_pos hden (Nat.two_pow_pos _)
  -- half a unit of the last place is at most one part in `2 ^ 53`
  have hsmall : 2 ^ 52 * (den * 2 ^ halvings num den) ≤ num <<< 1074 := by
    obtain ⟨-, hzero | hlower⟩ := @halvings_spec num den hden
    · rw [hzero, Nat.pow_zero, Nat.mul_one]
      exact hnormal
    · rwa [Nat.mul_left_comm, ← Nat.pow_add, Nat.add_comm 52]
  obtain ⟨hbelow, habove⟩ := @roundHalfEven_within (num <<< 1074) _ hunit
  have hsize : units (nearest num den) * den =
      significand num den * (den * 2 ^ halvings num den) := by
    rw [hunits]
    ring
  rw [hsize]
  rw [← significand] at hbelow habove
  rw [Nat.mul_assoc, Nat.add_mul, Nat.mul_assoc, Nat.one_mul] at *
  generalize significand num den * (den * 2 ^ halvings num den) = size at *
  generalize den * 2 ^ halvings num den = unit at *
  generalize num <<< 1074 = scaled at *
  omega

end AtomicRules.Binary64

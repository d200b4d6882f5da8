import AtomicRules.Proofs.Rounding
import Mathlib.Algebra.Order.Field.Rat
import Mathlib.Tactic.FieldSimp
import Mathlib.Tactic.Linarith
import Mathlib.Tactic.Positivity
import Mathlib.Tactic.Ring

/-!
# Rounding to the nearest even number

What it means that a rational number rounds to a binary64 number, said without a way to compute it:
no number is nearer, and of two that are equally near the even one is taken (`RoundsTo`). A rational
number rounds to one value only (`RoundsTo.beq`). What lies between the midpoints to the two
neighbours of a number rounds to it (`Near.roundsTo`), and `ofRatio` is this rounding
(`roundsTo_iff_ofRatio_beq`).
-/

namespace AtomicRules

/-- The size with a minus sign in front of it, or without. -/
def signed (negative : Bool) (size : ℚ) : ℚ :=
  if negative then -size else size

theorem abs_signed_sub_signed (negative : Bool) (a b : ℚ) :
    |signed negative a - signed negative b| = |a - b| := by
  cases negative
  · rfl
  · show |-a - -b| = |a - b|
    rw [← abs_neg]
    congr 1
    ring

/-- Sizes are at least as far from each other with signs as they are without. -/
theorem abs_sub_le_abs_signed_sub {a b : ℚ} (ha : 0 ≤ a) (hb : 0 ≤ b) (first second : Bool) :
    |a - b| ≤ |signed first a - signed second b| := by
  have habs (negative : Bool) {size : ℚ} (hsize : 0 ≤ size) : |signed negative size| = size := by
    cases negative
    · exact abs_of_nonneg hsize
    · exact (abs_neg size).trans (abs_of_nonneg hsize)
  have htriangle := abs_abs_sub_abs_le_abs_sub (signed first a) (signed second b)
  rwa [habs first ha, habs second hb] at htriangle

namespace Binary64

/-- The value of a number. Infinity counts as the power of two that would come next. -/
def toRat (x : Binary64) : ℚ :=
  signed x.negative (units x.magnitude / 2 ^ 1074)

/-- A rational number rounds to `x` when no number is nearer to it, and no other value is equally
near unless `x` is even. Zero is reached with either sign. -/
structure RoundsTo (q : ℚ) (x : Binary64) : Prop where
  not_nan : x.isNaN = false
  nearest (y : Binary64) (hy : y.isNaN = false) : |q - x.toRat| ≤ |q - y.toRat|
  even (y : Binary64) (hy : y.isNaN = false) (htie : |q - x.toRat| = |q - y.toRat|)
    (hne : x.toRat ≠ y.toRat) : x.magnitude % 2 = 0

theorem isNaN_eq_false_iff {x : Binary64} : x.isNaN = false ↔ x.magnitude ≤ infinity := by
  simp [isNaN]

/-! ## Values -/

theorem units_zero : units 0 = 0 := rfl

theorem units_le_units {a b : Nat} (h : a ≤ b) : units a ≤ units b := by
  rcases Nat.lt_or_eq_of_le h with hlt | rfl
  · exact Nat.le_of_lt (units_lt_units hlt)
  · exact Nat.le_refl _

/-- The place of a number in the order of all numbers, with both zeros in the middle. -/
def place (x : Binary64) : ℤ :=
  if x.negative then -x.magnitude else x.magnitude

/-- The signed size at a place, in units. -/
def unitsAt : ℤ → ℤ
  | .ofNat n => units n
  | .negSucc n => -units (n + 1)

/-- Sizes grow from one place to the next. -/
theorem unitsAt_lt_succ (place : ℤ) : unitsAt place < unitsAt (place + 1) := by
  have hstep (n : Nat) : (units n : ℤ) < units (n + 1) :=
    Int.ofNat_lt.2 (units_lt_units (Nat.lt_succ_self n))
  match place with
  | .ofNat n => exact hstep n
  | .negSucc 0 => exact neg_lt_zero.2 (hstep 0)
  | .negSucc (n + 1) => exact neg_lt_neg (hstep (n + 1))

theorem unitsAt_lt_iff {a b : ℤ} : unitsAt a < unitsAt b ↔ a < b :=
  (strictMono_int_of_lt_succ unitsAt_lt_succ).lt_iff_lt

theorem toRat_eq (x : Binary64) : x.toRat = unitsAt x.place / 2 ^ 1074 := by
  obtain ⟨negative, magnitude, _⟩ := x
  match negative, magnitude with
  | false, _ => rfl
  | true, 0 => simp [toRat, signed, place, unitsAt, units_zero]
  | true, n + 1 =>
      show -(units (n + 1) / 2 ^ 1074 : ℚ) = (-units (n + 1) : ℤ) / 2 ^ 1074
      rw [Int.cast_neg, Int.cast_natCast, neg_div]

/-- Values are ordered as their places are. -/
theorem toRat_lt_iff {x y : Binary64} : x.toRat < y.toRat ↔ x.place < y.place := by
  have hscale : (0 : ℚ) < 2 ^ 1074 := by positivity
  rw [toRat_eq, toRat_eq, div_lt_div_iff_of_pos_right hscale, Int.cast_lt,
    unitsAt_lt_iff]

theorem toRat_inj {x y : Binary64} : x.toRat = y.toRat ↔ x.place = y.place := by
  constructor
  · intro h
    by_contra hne
    rcases lt_or_gt_of_ne hne with hlt | hgt
    · exact absurd h (toRat_lt_iff.2 hlt).ne
    · exact absurd h (toRat_lt_iff.2 hgt).ne'
  · intro h
    rw [toRat_eq, toRat_eq, h]

/-- Numbers of one value are equal. -/
theorem beq_of_toRat_eq {x y : Binary64} (hx : x.isNaN = false) (h : x.toRat = y.toRat) :
    (x == y) = true := by
  have hplace := toRat_inj.1 h
  refine beq_iff.2 ⟨hx, ?_⟩
  obtain ⟨first, m, _⟩ := x
  obtain ⟨second, n, _⟩ := y
  simp only [place] at hplace
  cases first <;> cases second <;> simp at hplace ⊢ <;> omega

/-- A number is even when its place is. -/
theorem place_emod_two (x : Binary64) : x.place % 2 = 0 ↔ x.magnitude % 2 = 0 := by
  unfold place
  split <;> omega

/-- There is a number at every place from minus infinity to infinity. -/
theorem exists_place {place : ℤ} (h : place.natAbs ≤ infinity) :
    ∃ x : Binary64, x.isNaN = false ∧ x.place = place := by
  have hlt : place.natAbs < 0x8000000000000000 := Nat.lt_of_le_of_lt h (by decide)
  refine ⟨⟨place < 0, place.natAbs, hlt⟩, isNaN_eq_false_iff.2 h, ?_⟩
  simp only [Binary64.place, decide_eq_true_eq]
  omega

/-- The place of a number is between those of the two infinities. -/
theorem natAbs_place (x : Binary64) : x.place.natAbs = x.magnitude := by
  unfold place
  split <;> omega

/-! ## One value only -/

/-- A rational number does not round to two values. It would be halfway between them, and both even,
so that a number between them would be nearer. -/
theorem RoundsTo.not_toRat_lt {q : ℚ} {x y : Binary64} (hx : RoundsTo q x) (hy : RoundsTo q y) :
    ¬x.toRat < y.toRat := by
  intro hlt
  have htie : |q - x.toRat| = |q - y.toRat| :=
    le_antisymm (hx.nearest y hy.not_nan) (hy.nearest x hx.not_nan)
  have hxeven := (place_emod_two x).2 (hx.even y hy.not_nan htie hlt.ne)
  have hyeven := (place_emod_two y).2 (hy.even x hx.not_nan htie.symm hlt.ne')
  have hxbound := isNaN_eq_false_iff.1 hx.not_nan
  have hybound := isNaN_eq_false_iff.1 hy.not_nan
  have hplaces := toRat_lt_iff.1 hlt
  have hinside : (x.place + 1).natAbs ≤ infinity := by
    have hxplace := natAbs_place x
    have hyplace := natAbs_place y
    omega
  obtain ⟨z, hz, hplace⟩ := exists_place hinside
  have hxz : x.toRat < z.toRat := toRat_lt_iff.2 (by omega)
  have hzy : z.toRat < y.toRat := toRat_lt_iff.2 (by omega)
  have hnearer := hx.nearest z hz
  -- halfway between the two values
  have hmiddle : 2 * q = x.toRat + y.toRat := by
    rcases abs_eq_abs.1 htie with heq | heq <;> linarith
  rw [abs_of_nonneg (by linarith)] at hnearer
  rcases abs_cases (q - z.toRat) with ⟨habs, -⟩ | ⟨habs, -⟩ <;> linarith

/-- The numbers that a rational number rounds to are equal. -/
theorem RoundsTo.beq {q : ℚ} {x y : Binary64} (hx : RoundsTo q x) (hy : RoundsTo q y) :
    (x == y) = true :=
  beq_of_toRat_eq hx.not_nan
    (le_antisymm (le_of_not_gt (hy.not_toRat_lt hx)) (le_of_not_gt (hx.not_toRat_lt hy)))

/-- What rounds to a number rounds to every equal one. -/
theorem RoundsTo.of_beq {q : ℚ} {x y : Binary64} (hx : RoundsTo q x) (h : (x == y) = true) :
    RoundsTo q y := by
  obtain ⟨-, rfl | ⟨hxzero, hyzero⟩⟩ := beq_iff.1 h
  · exact hx
  · have hplace : x.place = y.place := by simp [place, hxzero, hyzero]
    have hvalue := toRat_inj.2 hplace
    refine ⟨isNaN_eq_false_iff.2 (by omega), ?_, fun _ _ _ _ => by omega⟩
    rw [← hvalue]
    exact hx.nearest

/-! ## Between two midpoints -/

/-- A size, in units, lies between the midpoints to the two neighbours of a magnitude. A midpoint
itself goes to the even magnitude, and nothing lies above infinity. -/
structure Near (size : ℚ) (magnitude : Nat) : Prop where
  below : (units (magnitude - 1) + units magnitude : ℚ) ≤ 2 * size
  above (hfinite : magnitude < infinity) : 2 * size ≤ units magnitude + units (magnitude + 1)
  below_of_odd (hodd : magnitude % 2 = 1) :
    (units (magnitude - 1) + units magnitude : ℚ) < 2 * size
  above_of_odd (hodd : magnitude % 2 = 1) (hfinite : magnitude < infinity) :
    2 * size < units magnitude + units (magnitude + 1)

namespace Near

variable {size : ℚ} {m n : Nat}

theorem nonneg (h : Near size m) : 0 ≤ size := by
  have hbelow := h.below
  have hunits : (0 : ℚ) ≤ units (m - 1) + units m := by positivity
  linarith

/-- Zero is near to no other magnitude than zero. -/
theorem pos (h : Near size m) (hm : 0 < m) : 0 < size := by
  have hbelow := h.below
  have hbefore : (0 : ℚ) ≤ units (m - 1) := Nat.cast_nonneg _
  have hunits : (0 : ℚ) < units m := by exact_mod_cast units_lt_units hm
  linarith

/-- Another magnitude is not closer to the size than the next one on its side. -/
theorem neighbour_or (hn : n ≤ infinity) (hne : n ≠ m) :
    (units n : ℚ) ≤ units (m - 1) ∨ m < infinity ∧ (units (m + 1) : ℚ) ≤ units n := by
  rcases Nat.lt_or_gt_of_ne hne with hlt | hgt
  · exact .inl (by exact_mod_cast units_le_units (Nat.le_sub_one_of_lt hlt))
  · exact .inr ⟨Nat.lt_of_lt_of_le hgt hn, by exact_mod_cast units_le_units hgt⟩

/-- No magnitude is nearer to a size than the one that the size is near. -/
theorem abs_sub_le (h : Near size m) (hn : n ≤ infinity) :
    |size - units m| ≤ |size - units n| := by
  by_cases hne : n = m
  · rw [hne]
  · have hbelow := h.below
    have hlower : (units (m - 1) : ℚ) ≤ units m := by exact_mod_cast units_le_units (Nat.sub_le m 1)
    have hupper : (units m : ℚ) ≤ units (m + 1) := by exact_mod_cast units_le_units (Nat.le_succ m)
    rw [abs_le]
    rcases neighbour_or hn hne with hle | ⟨hfinite, hle⟩
    · have hdistance := le_abs_self (size - units n)
      constructor <;> linarith
    · have habove := h.above hfinite
      have hdistance := neg_abs_le (size - units n)
      constructor <;> linarith

/-- No other magnitude is equally near when the magnitude is odd. -/
theorem abs_sub_lt (h : Near size m) (hodd : m % 2 = 1) (hn : n ≤ infinity) (hne : n ≠ m) :
    |size - units m| < |size - units n| := by
  have hbelow := h.below_of_odd hodd
  have hlower : (units (m - 1) : ℚ) < units m := by
    exact_mod_cast units_lt_units (by omega : m - 1 < m)
  have hupper : (units m : ℚ) < units (m + 1) := by
    exact_mod_cast units_lt_units (Nat.lt_succ_self m)
  rw [abs_lt]
  rcases neighbour_or hn hne with hle | ⟨hfinite, hle⟩
  · have hdistance := le_abs_self (size - units n)
    constructor <;> linarith
  · have habove := h.above_of_odd hodd hfinite
    have hdistance := neg_abs_le (size - units n)
    constructor <;> linarith

end Near

/-! ## Near a magnitude -/

theorem abs_div_sub_div {scale : ℚ} (hscale : 0 < scale) (a b : ℚ) :
    |a / scale - b / scale| = |a - b| / scale := by
  rw [← sub_div, abs_div, abs_of_pos hscale]

variable {size : ℚ} {x : Binary64}

/-- The distance of a number to a size with the same sign is that of its magnitude. -/
theorem abs_sub_toRat (size : ℚ) (x : Binary64) :
    |signed x.negative (size / 2 ^ 1074) - x.toRat| = |size - units x.magnitude| / 2 ^ 1074 :=
  (abs_signed_sub_signed _ _ _).trans (abs_div_sub_div (by positivity) _ _)

/-- The distance of a number to a size with any sign is at least that of its magnitude. -/
theorem le_abs_sub_toRat (hsize : 0 ≤ size) (negative : Bool) (y : Binary64) :
    |size - units y.magnitude| / 2 ^ 1074 ≤ |signed negative (size / 2 ^ 1074) - y.toRat| := by
  have hunits : (0 : ℚ) ≤ units y.magnitude / 2 ^ 1074 := by positivity
  have hscaled : (0 : ℚ) ≤ size / 2 ^ 1074 := by positivity
  rw [← abs_div_sub_div (by positivity)]
  exact abs_sub_le_abs_signed_sub hscaled hunits negative y.negative

/-- A number that is as far from a size as one with the same sign has no farther magnitude. -/
theorem le_of_tie (hsize : 0 ≤ size) {y : Binary64}
    (htie : |signed x.negative (size / 2 ^ 1074) - x.toRat| =
      |signed x.negative (size / 2 ^ 1074) - y.toRat|) :
    |size - units y.magnitude| ≤ |size - units x.magnitude| := by
  have hfar := le_abs_sub_toRat hsize x.negative y
  rw [← htie, abs_sub_toRat] at hfar
  exact (div_le_div_iff_of_pos_right (by positivity)).1 hfar

/-- A number other than zero and its negative are equally far from zero only. -/
theorem signed_eq_zero_of_tie {negative : Bool} {y : Binary64}
    (hmagnitude : y.magnitude = x.magnitude) (hne : x.toRat ≠ y.toRat)
    (htie : |signed negative size - x.toRat| = |signed negative size - y.toRat|) : size = 0 := by
  have hsum : x.toRat + y.toRat = 0 := by
    unfold toRat at hne ⊢
    rw [hmagnitude] at hne ⊢
    cases hx : x.negative <;> cases hy : y.negative <;> simp [hx, hy, signed] at hne ⊢
  have hzero : signed negative size = 0 := by
    rcases abs_eq_abs.1 htie with heq | heq
    · exact absurd (sub_right_injective heq) hne
    · linarith
  cases negative
  · exact hzero
  · exact neg_eq_zero.1 hzero

/-- A size that is near a magnitude, with a sign, rounds to the number of this sign. -/
theorem Near.roundsTo (hx : x.isNaN = false) (h : Near size x.magnitude) :
    RoundsTo (signed x.negative (size / 2 ^ 1074)) x := by
  have hsize := h.nonneg
  refine ⟨hx, fun y hy => ?_, fun y hy htie hne => ?_⟩
  · rw [abs_sub_toRat]
    refine le_trans ?_ (le_abs_sub_toRat hsize x.negative y)
    exact div_le_div_of_nonneg_right (h.abs_sub_le (isNaN_eq_false_iff.1 hy)) (by positivity)
  · by_contra hodd
    have hodd : x.magnitude % 2 = 1 := by omega
    by_cases hmagnitude : y.magnitude = x.magnitude
    · have hzero := signed_eq_zero_of_tie hmagnitude hne htie
      have hpos : 0 < size / 2 ^ 1074 := div_pos (h.pos (by omega)) (by positivity)
      exact absurd hzero hpos.ne'
    · have hlt := h.abs_sub_lt hodd (isNaN_eq_false_iff.1 hy) hmagnitude
      exact absurd (le_of_tie hsize htie) (not_le_of_gt hlt)

/-! ## The rounding of a ratio -/

/-- A ratio that is rounded to an odd number is not halfway to another one. -/
theorem roundHalfEven_within_of_odd {num den : Nat} (hden : 0 < den)
    (hodd : roundHalfEven num den % 2 = 1) :
    2 * num < (2 * roundHalfEven num den + 1) * den ∧
      2 * roundHalfEven num den * den < 2 * num + den := by
  have hsplit := Nat.div_add_mod num den
  have hlt := Nat.mod_lt num hden
  unfold roundHalfEven at *
  generalize num / den = floor at *
  generalize num % den = rest at *
  subst hsplit
  dsimp only at *
  split at hodd
  · next hbelow =>
      rw [if_pos hbelow]
      constructor <;> grind
  · next hbelow =>
      rw [if_neg hbelow]
      split at hodd
      · next habove =>
          rw [if_pos habove]
          constructor <;> grind
      · omega

/-- A ratio is near a magnitude when it is between the midpoints, multiplied by the denominator. -/
theorem near_div {num den m : Nat} (hden : 0 < den)
    (hbelow : (units (m - 1) + units m) * den ≤ 2 * num)
    (habove : m < infinity → 2 * num ≤ (units m + units (m + 1)) * den)
    (hodd : m % 2 = 1 → (units (m - 1) + units m) * den < 2 * num ∧
      2 * num < (units m + units (m + 1)) * den) : Near (num / den) m := by
  have hden : (0 : ℚ) < den := by exact_mod_cast hden
  refine ⟨?_, fun hfinite => ?_, fun hm => ?_, fun hm _ => ?_⟩
  · rw [← mul_div_assoc, le_div_iff₀ hden]
    exact_mod_cast hbelow
  · rw [← mul_div_assoc, div_le_iff₀ hden]
    exact_mod_cast habove hfinite
  · rw [← mul_div_assoc, lt_div_iff₀ hden]
    exact_mod_cast (hodd hm).1
  · rw [← mul_div_assoc, div_lt_iff₀ hden]
    exact_mod_cast (hodd hm).2

/-- The midpoint before a magnitude is half a unit of the last place away, unless the magnitude is
the first one of its exponent. -/
theorem midpoint_before {exponent bits : Nat} (hle : bits ≤ 2 ^ 53) (hpos : 0 < bits)
    (hgt : exponent = 0 ∨ 2 ^ 52 < bits) (den : Nat) :
    (units (exponent * 2 ^ 52 + bits - 1) + units (exponent * 2 ^ 52 + bits)) * den +
      den * 2 ^ exponent = 2 * bits * (den * 2 ^ exponent) := by
  obtain ⟨before, rfl⟩ : ∃ before, bits = before + 1 := ⟨bits - 1, by omega⟩
  have hpred : exponent * 2 ^ 52 + (before + 1) - 1 = exponent * 2 ^ 52 + before := by omega
  rw [hpred, units_mul_add (by omega) (by omega), units_mul_add hle (by omega)]
  ring

/-- The midpoint after a magnitude is at least half a unit of the last place away. -/
theorem le_midpoint_after {exponent bits : Nat} (hle : bits ≤ 2 ^ 53)
    (hge : exponent = 0 ∨ 2 ^ 52 ≤ bits) (den : Nat) :
    (2 * bits + 1) * (den * 2 ^ exponent) ≤
      (units (exponent * 2 ^ 52 + bits) + units (exponent * 2 ^ 52 + bits + 1)) * den := by
  have hstep : 2 ^ exponent ≤ 2 ^ ((exponent * 2 ^ 52 + bits) / 0x10000000000000 - 1) :=
    Nat.pow_le_pow_right (by decide) (by rcases hge with rfl | hge <;> omega)
  rw [units_succ, units_mul_add hle hge, Nat.one_shiftLeft]
  calc (2 * bits + 1) * (den * 2 ^ exponent)
    _ = (bits * 2 ^ exponent + (bits * 2 ^ exponent + 2 ^ exponent)) * den := by ring
    _ ≤ _ := Nat.mul_le_mul_right den (Nat.add_le_add_left (Nat.add_le_add_left hstep _) _)

/-- A ratio is near the exponent and the significand that it is rounded to. -/
theorem near_halvings {num den : Nat} (hden : 0 < den) :
    Near ((num <<< 1074 : Nat) / den) (halvings num den * 2 ^ 52 + significand num den) := by
  have hle := @significand_le num den hden
  have hge := @halvings_eq_zero_or num den hden
  have hunit : 0 < den * 2 ^ halvings num den := Nat.mul_pos hden (Nat.two_pow_pos _)
  obtain ⟨hupper, hlower⟩ := @roundHalfEven_within (num <<< 1074) _ hunit
  have hstrict := @roundHalfEven_within_of_odd (num <<< 1074) _ hunit
  have hafter := le_midpoint_after hle hge den
  rw [← significand] at hupper hlower hstrict
  refine near_div hden ?_ (fun _ => hupper.trans hafter) (fun hodd => ?_)
  · by_cases hgt : halvings num den = 0 ∨ 2 ^ 52 < significand num den
    · rcases Nat.eq_zero_or_pos (significand num den) with hzero | hpos
      · have hnone : halvings num den = 0 := by omega
        simp [hzero, hnone, units_zero]
      · have hbefore := midpoint_before hle hpos hgt den
        omega
    · -- the midpoint before the first magnitude of an exponent is nearer than half a unit of the
      -- last place, but the ratio is not below the magnitude
      have hfirst : significand num den = 2 ^ 52 := by omega
      have hratio := (@halvings_spec num den hden).2.resolve_left (by omega)
      have hbefore := units_le_units (Nat.sub_le (halvings num den * 2 ^ 52 + 2 ^ 52) 1)
      rw [hfirst] at hle hge ⊢
      rw [units_mul_add hle hge, ← Nat.pow_add, Nat.add_comm 52] at hbefore ⊢
      calc _ ≤ (2 ^ (halvings num den + 52) + 2 ^ (halvings num den + 52)) * den :=
            Nat.mul_le_mul_right den (Nat.add_le_add_right hbefore _)
        _ = 2 * (den * 2 ^ (halvings num den + 52)) := by ring
        _ ≤ 2 * num <<< 1074 := Nat.mul_le_mul_left 2 hratio
  · have hodd : significand num den % 2 = 1 := by omega
    have hbefore := @midpoint_before (halvings num den) _ hle (by omega) (by omega) den
    obtain ⟨hupper, hlower⟩ := hstrict hodd
    exact ⟨by omega, lt_of_lt_of_le hupper hafter⟩

/-- A ratio is near its nearest magnitude. -/
theorem near_nearest {num den : Nat} (hden : 0 < den) :
    Near ((num <<< 1074 : Nat) / den) (nearest num den) := by
  rcases Nat.lt_or_ge infinity (halvings num den * 2 ^ 52 + significand num den)
    with hlarge | hsmall
  · have hinfinite : nearest num den = infinity := by
      rw [nearest_eq]
      exact Nat.min_eq_right (Nat.le_of_lt hlarge)
    have hnum := (nearest_eq_infinity_iff hden).1 hinfinite
    have hscale {limit : Nat} (hlimit : limit * den ≤ num) (places : Nat) :
        limit * (2 <<< places) * den ≤ 2 * num <<< places := by
      rw [Nat.shiftLeft_eq, Nat.shiftLeft_eq]
      calc _ = 2 * (limit * den * 2 ^ places) := by ring
        _ ≤ _ := Nat.mul_le_mul_left 2 (Nat.mul_le_mul_right (2 ^ places) hlimit)
    have hmidpoint : units (infinity - 1) + units infinity =
        (2 ^ 54 - 1) * 2 ^ 970 * (2 <<< 1074) := by decide +kernel
    rw [hinfinite]
    refine near_div hden ?_ (fun hlt => absurd hlt (Nat.lt_irrefl _)) (fun hodd => ?_)
    · rw [hmidpoint]
      exact hscale hnum 1074
    · exact absurd hodd (by decide)
  · rw [nearest_eq, Nat.min_eq_left hsmall]
    exact near_halvings hden

/-- The number that a ratio is rounded to is one that it rounds to. -/
theorem roundsTo_ofRatio (negative : Bool) {num den : Nat} (hden : 0 < den) :
    RoundsTo (signed negative (num / den)) (ofRatio negative num den) := by
  have hunits (places : Nat) : ((num <<< places : Nat) / den / 2 ^ places : ℚ) = num / den := by
    rw [Nat.shiftLeft_eq, Nat.cast_mul, Nat.cast_pow, Nat.cast_ofNat]
    field_simp
  have hnan : (ofRatio negative num den).isNaN = false :=
    isNaN_eq_false_iff.2 (nearest_le_infinity num den)
  rw [← hunits 1074]
  exact (near_nearest hden).roundsTo hnan

/-- A ratio rounds to the number that it is rounded to, and to no other but equal ones. -/
theorem roundsTo_iff_ofRatio_beq (negative : Bool) {num den : Nat} (hden : 0 < den) :
    RoundsTo (signed negative (num / den)) x ↔ (ofRatio negative num den == x) = true :=
  ⟨(roundsTo_ofRatio negative hden).beq, (roundsTo_ofRatio negative hden).of_beq⟩

end Binary64

end AtomicRules

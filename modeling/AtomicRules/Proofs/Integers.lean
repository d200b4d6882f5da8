import AtomicRules.Proofs.ShortestDecimals
import AtomicRules.Request

/-!
# Integers and their texts

An integer up to `2 ^ 53` is written as itself, whatever type it has (`Value.OfInteger.css_eq`). It
is a binary64 number (`units_nearest`), and the numbers next to it are at most one away, so that it
is the only integer between the midpoints to them (`eq_of_near`). The search for the shortest
decimal comes upon it before any decimal with places after the point, for it begins at an exponent
that is not negative (`exists_shortest_eq`).
-/

namespace AtomicRules

/-! ## Numerals in base ten -/

namespace Text.Radix

/-- A numeral of more than one digit is the numeral of the quotient and one digit. -/
theorem numeral_eq_if {base : Nat} (hbase : 1 < base) (n : Nat) :
    numeral base n =
      if n < base then [digitChar n] else numeral base (n / base) ++ [digitChar (n % base)] := by
  have hpos : 0 < base := Nat.zero_lt_of_lt hbase
  rcases Nat.eq_zero_or_pos n with rfl | hn
  · rw [if_pos hpos]
    rfl
  · rw [numeral, if_neg (by omega), digits_eq_append hbase hn, List.map_append]
    split
    · next hlt =>
        rw [Nat.div_eq_of_lt hlt, Nat.mod_eq_of_lt hlt, digits_zero]
        rfl
    · next hge =>
        have hdiv : n / base ≠ 0 := Nat.ne_of_gt (Nat.div_pos (Nat.le_of_not_lt hge) hpos)
        rw [numeral, if_neg hdiv]
        rfl

/-- In base ten the numeral of a number is the one that it is usually written with. -/
theorem numeral_ten (n : Nat) : numeral 10 n = Nat.toDigits 10 n := by
  have hchar : ∀ digit < 10, digitChar digit = Nat.digitChar digit := by decide
  induction n using Nat.strongRecOn with
  | ind n ih =>
      rw [numeral_eq_if (by decide), Nat.toDigits_eq_if (by decide)]
      split
      · next hlt => rw [hchar n hlt]
      · next hge => rw [ih (n / 10) (by omega), hchar (n % 10) (Nat.mod_lt n (by decide))]

/-- A power of the base adds zeros behind a numeral. -/
theorem numeral_mul_pow {base n : Nat} (hbase : 1 < base) (hn : 0 < n) (zeros : Nat) :
    numeral base (n * base ^ zeros) = numeral base n ++ List.replicate zeros '0' := by
  have hpos : 0 < base := Nat.zero_lt_of_lt hbase
  induction zeros with
  | zero => simp
  | succ zeros ih =>
      have hpower : 0 < n * base ^ zeros := Nat.mul_pos hn (Nat.pow_pos hpos)
      rw [Nat.pow_succ, ← Nat.mul_assoc, numeral_eq_if hbase,
        if_neg (Nat.not_lt.2 (Nat.le_mul_of_pos_left base hpower)), Nat.mul_div_cancel _ hpos,
        Nat.mul_mod_left, ih, List.replicate_succ', List.append_assoc]
      rfl

end Text.Radix

/-- Without places after the point, the positional notation of a decimal is a numeral. -/
theorem Decimal.positional_natCast {coefficient : Nat} (hpos : 0 < coefficient) (zeros : Nat) :
    positional ⟨coefficient, zeros⟩ = Text.Radix.numeral 10 (coefficient * 10 ^ zeros) :=
  (Text.Radix.numeral_mul_pow (by decide) hpos zeros).symm

namespace Binary64

variable {n magnitude : Nat}

/-! ## Integers as magnitudes -/

/-- The magnitude of `2 ^ 53`, up to which every integer is a number. -/
def exactLimit : Nat := 1076 * 2 ^ 52

/-- A positive integer below `2 ^ 53` is the size of a magnitude. -/
theorem exists_units_eq (hpos : 0 < n) (hlt : n < 2 ^ 53) :
    ∃ magnitude < exactLimit, units magnitude = n * 2 ^ 1074 := by
  have hlog : n.log2 < 53 := (Nat.log2_lt (Nat.ne_of_gt hpos)).2 hlt
  -- doubled so often, the integer has its 53rd bit
  have hge : 2 ^ 52 ≤ n * 2 ^ (52 - n.log2) := by
    calc 2 ^ 52 = 2 ^ n.log2 * 2 ^ (52 - n.log2) := by
            rw [← Nat.pow_add, Nat.add_sub_cancel' (by omega)]
      _ ≤ n * 2 ^ (52 - n.log2) :=
            Nat.mul_le_mul_right _ (Nat.log2_self_le (Nat.ne_of_gt hpos))
  have hbits : n * 2 ^ (52 - n.log2) < 2 ^ 53 := by
    calc n * 2 ^ (52 - n.log2) < 2 ^ (n.log2 + 1) * 2 ^ (52 - n.log2) :=
            Nat.mul_lt_mul_of_pos_right Nat.lt_log2_self (Nat.two_pow_pos _)
      _ = 2 ^ 53 := by rw [← Nat.pow_add, show n.log2 + 1 + (52 - n.log2) = 53 by omega]
  refine ⟨(1074 - (52 - n.log2)) * 2 ^ 52 + n * 2 ^ (52 - n.log2), ?_, ?_⟩
  · unfold exactLimit
    omega
  · rw [units_mul_add (Nat.le_of_lt hbits) (.inr hge), Nat.mul_assoc, ← Nat.pow_add]
    congr 2
    omega

/-- A positive integer below `2 ^ 53` is a number. -/
theorem units_nearest (hpos : 0 < n) (hlt : n < 2 ^ 53) :
    nearest n 1 < exactLimit ∧ units (nearest n 1) = n * 2 ^ 1074 := by
  obtain ⟨magnitude, hmagnitude, hunits⟩ := exists_units_eq hpos hlt
  have hscale (places : Nat) : nearest (n * 2 ^ places) (1 <<< places) = nearest n 1 := by
    rw [← nearest_mul_right (Nat.two_pow_pos places) n 1, Nat.one_mul, Nat.one_shiftLeft]
  have hnearest : nearest n 1 = magnitude := by
    rw [← hscale 1074, ← hunits]
    exact nearest_units (Nat.le_trans (Nat.le_of_lt hmagnitude) (by decide))
  rw [hnearest]
  exact ⟨hmagnitude, hunits⟩

/-- Magnitudes below that of `2 ^ 53` are at most one away from the next one. -/
theorem units_succ_le (h : magnitude < exactLimit) :
    units (magnitude + 1) ≤ units magnitude + 2 ^ 1074 := by
  have hpow {places : Nat} (hplaces : magnitude / 2 ^ 52 - 1 ≤ places) :
      units (magnitude + 1) ≤ units magnitude + 2 ^ places := by
    rw [units_succ, Nat.one_shiftLeft]
    exact Nat.add_le_add_left (Nat.pow_le_pow_right (by decide) hplaces) _
  apply hpow
  unfold exactLimit at h
  omega

/-! ## Integers as decimals -/

/-- The grid of the decimals without an exponent goes through all integers. -/
theorem comparable_mul_pow (n : Nat) :
    comparable (2 * (n * 2 ^ 1074)) = n * gridPoint 1 finest := by
  have hshift (places power : Nat) :
      2 * (n * 2 ^ places) * power = n * (1 * power) <<< (places + 1) := by
    rw [Nat.shiftLeft_eq, Nat.pow_succ]
    ring
  unfold comparable gridPoint
  generalize Nat.pow 10 finest = power
  exact hshift 1074 power

/-- The search for the shortest decimal of a number from one up begins at an exponent that is not
negative. -/
theorem finest_le_coarsest (h : 2 ^ 1074 ≤ units magnitude) :
    finest ≤ coarsest magnitude := by
  -- the exponents are kept as variables, so that no large power is computed
  have hgrid (places bits : Nat) {power : Nat} (hpower : 2 ^ bits ≤ power)
      (hone : 2 ^ places ≤ units magnitude) :
      bits ≤ (((units magnitude + units (magnitude + 1)) * power) >>> (places + 1)).log2 := by
    have hnext := units_lt_units (Nat.lt_add_one magnitude)
    have hlarge : power ≤
        ((units magnitude + units (magnitude + 1)) * power) >>> (places + 1) := by
      rw [Nat.shiftRight_eq_div_pow, Nat.le_div_iff_mul_le (Nat.two_pow_pos _), Nat.mul_comm,
        Nat.pow_succ]
      exact Nat.mul_le_mul_right _ (by omega)
    have hpos := Nat.two_pow_pos bits
    exact (Nat.le_log2 (by omega)).2 (Nat.le_trans hpower hlarge)
  have hlog : 1076 ≤ (comparable (units magnitude + units (magnitude + 1)) >>> 1075).log2 :=
    hgrid 1074 1076 (by decide +kernel) h
  calc finest ≤ (1076 + 1) * 151 / 500 := by decide
    _ ≤ coarsest magnitude :=
      Nat.div_le_div_right (Nat.mul_le_mul_right _ (Nat.succ_le_succ hlog))

/-- A magnitude of the size of a positive integer is not zero. -/
theorem pos_of_units_eq (hpos : 0 < n) (hunits : units magnitude = n * 2 ^ 1074) :
    0 < magnitude := by
  rcases Nat.eq_zero_or_pos magnitude with rfl | hmagnitude
  · have hne : n * 2 ^ 1074 ≠ 0 := by positivity
    exact absurd hunits.symm hne
  · exact hmagnitude

/-- The search for the shortest decimal of an integer ends at an exponent that is not negative. -/
theorem exists_shortest_eq (hpos : 0 < n) (hunits : units magnitude = n * 2 ^ 1074) :
    ∃ coefficient zeros : ℕ, shortest magnitude = ⟨coefficient, zeros⟩ := by
  have hone : 2 ^ 1074 ≤ units magnitude := by
    rw [hunits]
    exact Nat.le_mul_of_pos_left _ hpos
  have hgrid : ∃ coefficient, onGrid? magnitude finest = some coefficient := by
    apply exists_onGrid? (pos_of_units_eq hpos hunits)
    rw [hunits, comparable_mul_pow, Nat.mul_mod_left]
    decide +kernel
  obtain ⟨coefficient, hit, hle, heq, -⟩ :=
    readsBack_shortestFrom hgrid (finest_le_coarsest hone)
  refine ⟨coefficient, hit - finest, ?_⟩
  rw [shortest, heq, Nat.cast_sub hle]

/-- Two multiples of a unit that are at most half a unit apart are the same. -/
theorem eq_of_half_apart {a b unit : Nat} (hunit : 0 < unit)
    (hle : 2 * (a * unit) ≤ 2 * (b * unit) + unit)
    (hge : 2 * (b * unit) ≤ 2 * (a * unit) + unit) : a = b := by
  have hbelow : 2 * a * unit ≤ (2 * b + 1) * unit := by linarith
  have habove : 2 * b * unit ≤ (2 * a + 1) * unit := by linarith
  have hatMost := Nat.le_of_mul_le_mul_right hbelow hunit
  have hatLeast := Nat.le_of_mul_le_mul_right habove hunit
  omega

/-- Below `2 ^ 53` the midpoints are at most one half away from an integer, so the only integer
between them is the integer itself. -/
theorem eq_of_near {whole : Nat} (hpos : 0 < n) (hbelow : magnitude < exactLimit)
    (hunits : units magnitude = n * 2 ^ 1074) (hnear : Near (whole * 2 ^ 1074 : ℕ) magnitude) :
    whole = n := by
  have hmagnitude := pos_of_units_eq hpos hunits
  have hbefore := @units_succ_le (magnitude - 1) (by omega)
  have hafter := units_succ_le hbelow
  have hlower : units (magnitude - 1) + units magnitude ≤ 2 * (whole * 2 ^ 1074) := by
    exact_mod_cast hnear.below
  have hupper : 2 * (whole * 2 ^ 1074) ≤ units magnitude + units (magnitude + 1) := by
    exact_mod_cast hnear.above (Nat.lt_trans hbelow (by decide))
  rw [Nat.sub_add_cancel hmagnitude] at hbefore
  rw [hunits] at *
  have hunit : (0 : Nat) < 2 ^ 1074 := by positivity
  generalize (2 : Nat) ^ 1074 = unit at *
  exact eq_of_half_apart hunit (by omega) (by omega)

/-- The shortest decimal of an integer below `2 ^ 53` is the integer. -/
theorem shortest_eq_of_lt (hpos : 0 < n) (hbelow : magnitude < exactLimit)
    (hunits : units magnitude = n * 2 ^ 1074) :
    ∃ coefficient zeros : ℕ, shortest magnitude = ⟨coefficient, zeros⟩ ∧ 0 < coefficient ∧
      coefficient * 10 ^ zeros = n := by
  obtain ⟨coefficient, zeros, hshortest⟩ := exists_shortest_eq hpos hunits
  obtain ⟨size, hnear, hcoefficient, hvalue⟩ := near_shortest (pos_of_units_eq hpos hunits)
  rw [hshortest] at hcoefficient hvalue
  have hsize (exponent : Nat)
      (hvalue : coefficient * (10 : ℚ) ^ (zeros : ℤ) = size / 2 ^ exponent) :
      size = (coefficient * 10 ^ zeros * 2 ^ exponent : ℕ) := by
    rw [eq_div_iff (by positivity), zpow_natCast] at hvalue
    push_cast
    exact hvalue.symm
  rw [hsize 1074 hvalue] at hnear
  exact ⟨coefficient, zeros, hshortest, hcoefficient, eq_of_near hpos hbelow hunits hnear⟩

/-- Up to `2 ^ 53` a positive integer is its own shortest decimal. -/
theorem positional_shortest_nearest (hpos : 0 < n) (hle : n ≤ 2 ^ 53) :
    (shortest (nearest n 1)).positional = Text.Radix.numeral 10 n := by
  rcases Nat.lt_or_eq_of_le hle with hlt | rfl
  · obtain ⟨hbelow, hunits⟩ := units_nearest hpos hlt
    obtain ⟨coefficient, zeros, hshortest, hcoefficient, hvalue⟩ :=
      shortest_eq_of_lt hpos hbelow hunits
    rw [hshortest, Decimal.positional_natCast hcoefficient, hvalue]
  · -- the next number is two away, so the midpoint to it is an integer as well
    decide +kernel

/-- Up to `2 ^ 53` a positive integer is a finite number other than zero. -/
theorem nearest_bounds (hpos : 0 < n) (hle : n ≤ 2 ^ 53) :
    0 < nearest n 1 ∧ nearest n 1 < infinity := by
  rcases Nat.lt_or_eq_of_le hle with hlt | rfl
  · obtain ⟨hbelow, hunits⟩ := units_nearest hpos hlt
    exact ⟨pos_of_units_eq hpos hunits, Nat.lt_trans hbelow (by decide)⟩
  · decide +kernel

/-- Up to `2 ^ 53` an integer other than zero is a finite number other than zero. -/
theorem isZero_ofInt {n : Int} (hne : n ≠ 0) (hle : n.natAbs ≤ 2 ^ 53) :
    (ofInt n).isZero = false ∧ (ofInt n).isFinite = true := by
  obtain ⟨hpos, hfinite⟩ := nearest_bounds (Int.natAbs_pos.2 hne) hle
  exact ⟨beq_false_of_ne (Nat.ne_of_gt hpos), decide_eq_true hfinite⟩

/-- Up to `2 ^ 53` an integer other than zero has the numeral that it is usually written with. -/
theorem numeral_ofInt {n : Int} (hne : n ≠ 0) (hle : n.natAbs ≤ 2 ^ 53) :
    String.ofList (numeral (ofInt n)) = toString n := by
  have hdigits : (shortest (ofInt n).magnitude).positional = Nat.toDigits 10 n.natAbs :=
    (positional_shortest_nearest (Int.natAbs_pos.2 hne) hle).trans (Text.Radix.numeral_ten _)
  rw [numeral, (isZero_ofInt hne hle).1, if_neg Bool.false_ne_true, hdigits, String.ofList_append]
  cases n with
  | ofNat n => exact String.empty_append
  | negSucc n =>
      have hsign : (ofInt (.negSucc n)).negative = true :=
        decide_eq_true (Int.negSucc_lt_zero n)
      rw [if_pos hsign]
      rfl

end Binary64

/-- Up to `2 ^ 53` an integer is written as itself, with the unit of the property. -/
theorem Property.number_ofInt (property : String) {n : Int} (hle : n.natAbs ≤ 2 ^ 53) :
    number property (.ofInt n) =
      if n = 0 then "0"
      else toString n ++ if unitless.contains property then "" else "px" := by
  split
  · next hzero =>
      have hisZero : (Binary64.ofInt 0).isZero = true := by decide +kernel
      rw [hzero, number, if_pos hisZero]
  · next hne =>
      obtain ⟨hisZero, hfinite⟩ := Binary64.isZero_ofInt hne hle
      rw [number, hisZero, hfinite, if_neg Bool.false_ne_true, Bool.not_true,
        if_neg Bool.false_ne_true, Binary64.numeral_ofInt hne hle]

namespace Value

/-- The value is an integer, as data of one of the integer types. -/
inductive OfInteger : Int → Value → Prop
  | int (n : Int) : OfInteger n (toValue n)
  | int8 (n : Int8) : OfInteger n.toInt (toValue n)
  | int16 (n : Int16) : OfInteger n.toInt (toValue n)
  | int32 (n : Int32) : OfInteger n.toInt (toValue n)
  | int64 (n : Int64) : OfInteger n.toInt (toValue n)
  | iSize (n : ISize) : OfInteger n.toInt (toValue n)
  | uInt8 (n : UInt8) : OfInteger n.toNat (toValue n)
  | uInt16 (n : UInt16) : OfInteger n.toNat (toValue n)
  | uInt32 (n : UInt32) : OfInteger n.toNat (toValue n)
  | uInt64 (n : UInt64) : OfInteger n.toNat (toValue n)
  | uSize (n : USize) : OfInteger n.toNat (toValue n)

/-- The type of an integer plays no part in its value. -/
theorem OfInteger.eq_number {n : Int} {value : Value} (h : OfInteger n value) :
    value = .number (.ofInt n) := by
  cases h <;> rfl

/-- Up to `2 ^ 53` an integer of any type is written as itself, as the decimal numeral that it is
usually written with, and with the unit of the property unless it is zero. Integers of other types
that are equal to it ask for the same atom, and so does the text that it is written as. -/
theorem OfInteger.css_eq {n : Int} {value : Value} (h : OfInteger n value)
    (hle : n.natAbs ≤ 2 ^ 53) (property : String) :
    ∃ leaf, value.scalar? = some leaf ∧
      leaf.css property =
        (if n = 0 then "0"
        else if Property.unitless.contains property then toString n
        else toString n ++ "px") ∧
      ∀ scope : Scope,
        value.requests scope property = [.atom (scope.atom property leaf)] ∧
        (∀ other, OfInteger n other →
          other.requests scope property = value.requests scope property) ∧
        (text (leaf.css property)).requests scope property = value.requests scope property := by
  refine ⟨.number (.ofInt n), ?_, ?_, fun scope => ⟨?_, fun other hother => ?_, ?_⟩⟩
  · rw [h.eq_number]
    rfl
  · rw [Scalar.css, Property.number_ofInt property hle]
    congr 1
    split
    · exact String.append_empty
    · rfl
  · rw [h.eq_number, requests]
  · rw [h.eq_number, hother.eq_number]
  · rw [h.eq_number, requests, requests]
    rfl

/-- The number farthest below zero, and a small number of two types, each with the text that asks
for the same. -/
theorem OfInteger.css_eq_limit :
    let scope : Scope := ⟨some "@media print", [":hover"]⟩
    let limit : Int64 := -9007199254740992
    let byte : UInt8 := 200
    let word : Int16 := 200
    OfInteger (-9007199254740992) (toValue limit) ∧ OfInteger 200 (toValue byte) ∧
      OfInteger 200 (toValue word) ∧
      (text "-9007199254740992px").requests scope "width" = (toValue limit).requests scope "width" ∧
      (toValue word).requests scope "order" = (toValue byte).requests scope "order" ∧
      (text "200").requests scope "order" = (toValue byte).requests scope "order" := by
  intro scope limit byte word
  have hlimit : OfInteger (-9007199254740992) (toValue limit) := .int64 limit
  have hbyte : OfInteger 200 (toValue byte) := .uInt8 byte
  have hword : OfInteger 200 (toValue word) := .int16 word
  obtain ⟨_, -, hwidth, hown⟩ := hlimit.css_eq (by decide) "width"
  obtain ⟨_, -, horder, hshared⟩ := hbyte.css_eq (by decide) "order"
  obtain ⟨-, -, hlimitText⟩ := hown scope
  obtain ⟨-, hother, hbyteText⟩ := hshared scope
  rw [hwidth] at hlimitText
  rw [horder] at hbyteText
  exact ⟨hlimit, hbyte, hword, hlimitText, hother _ hword, hbyteText⟩

end Value

end AtomicRules

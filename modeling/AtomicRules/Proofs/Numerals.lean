import AtomicRules.Decimal
import AtomicRules.Proofs.Json.Coefficients
import AtomicRules.Proofs.Json.Numbers

/-!
# Plain numerals

Number literals without an exponent. The positional notation of a decimal is a plain numeral of the
decimal's size (`Decimal.plain_positional`).
-/

namespace AtomicRules

namespace Text.Radix

theorem value_replicate_zero (base count : Nat) : value base (List.replicate count 0) = 0 := by
  induction count with
  | zero => rfl
  | succ count ih => rw [List.replicate_succ', value_append_singleton, ih, Nat.mul_zero]

end Text.Radix

namespace Json.Grammar

open Text.Radix

/-- A number literal without an exponent: digits, perhaps a point and more digits, and perhaps a
minus sign in front. -/
inductive Plain : Numeral → List Char → Prop
  | positive {whole fraction : List Nat} {front middle : List Char} (hwhole : Whole whole front)
      (hfraction : Fraction fraction middle) : Plain ⟨false, whole, fraction, 0⟩ (front ++ middle)
  | negative {whole fraction : List Nat} {front middle : List Char} (hwhole : Whole whole front)
      (hfraction : Fraction fraction middle) :
      Plain ⟨true, whole, fraction, 0⟩ ('-' :: (front ++ middle))

namespace Plain

/-- A plain numeral is a number literal. -/
theorem number {literal : Numeral} {text : List Char} (h : Plain literal text) :
    Number literal text := by
  cases h with
  | @positive _ _ front middle hwhole hfraction =>
      have hnumber := Number.positive hwhole hfraction .absent
      rwa [List.append_nil] at hnumber
  | @negative _ _ front middle hwhole hfraction =>
      have hnumber := Number.negative hwhole hfraction .absent
      rwa [List.append_nil] at hnumber

/-- A minus sign may stand in front. -/
theorem withSign {whole fraction : List Nat} {text : List Char}
    (h : Plain ⟨false, whole, fraction, 0⟩ text) (negative : Bool) :
    Plain ⟨negative, whole, fraction, 0⟩ ((if negative then ['-'] else []) ++ text) := by
  cases h with
  | positive hwhole hfraction =>
      cases negative with
      | false => simpa using Plain.positive hwhole hfraction
      | true => simpa using Plain.negative hwhole hfraction

end Plain

end Json.Grammar

namespace Decimal

open Text.Radix Json.Grammar

/-- The digits of a coefficient with zeros in front, so that a digit is left before the point. -/
def padded (coefficient places : Nat) : List Nat :=
  List.replicate (places + 1 - (digits 10 coefficient).length) 0 ++ digits 10 coefficient

theorem lt_length_padded (coefficient places : Nat) :
    places < (padded coefficient places).length := by
  rw [padded, List.length_append, List.length_replicate]
  omega

theorem lt_ten_of_mem_padded {coefficient places digit : Nat}
    (h : digit ∈ padded coefficient places) : digit < 10 := by
  rcases List.mem_append.1 h with hzero | hdigit
  · rw [List.eq_of_mem_replicate hzero]
    decide
  · exact lt_of_mem_digits (by decide) hdigit

theorem value_padded (coefficient places : Nat) :
    value 10 (padded coefficient places) = coefficient := by
  rw [padded, value_append, value_replicate_zero, Nat.zero_mul, Nat.zero_add,
    value_digits (by decide)]

/-- The digits before the point. -/
def wholeDigits (coefficient places : Nat) : List Nat :=
  (padded coefficient places).take ((padded coefficient places).length - places)

/-- The digits after the point. -/
def fractionDigits (coefficient places : Nat) : List Nat :=
  (padded coefficient places).drop ((padded coefficient places).length - places)

theorem wholeDigits_append_fractionDigits (coefficient places : Nat) :
    wholeDigits coefficient places ++ fractionDigits coefficient places =
      padded coefficient places :=
  List.take_append_drop _ _

theorem length_fractionDigits (coefficient places : Nat) :
    (fractionDigits coefficient places).length = places := by
  have hlength := lt_length_padded coefficient places
  rw [fractionDigits, List.length_drop]
  omega

/-- Before the point stands a zero alone, or the first digits of the coefficient. -/
theorem whole_wholeDigits (coefficient places : Nat) :
    Whole (wholeDigits coefficient places) ((wholeDigits coefficient places).map digitChar) := by
  have hlength := lt_length_padded coefficient places
  have hne : (padded coefficient places).length - places ≠ 0 := by omega
  refine ⟨⟨fun hnil => ?_, fun _ h => lt_ten_of_mem_padded (List.mem_of_mem_take h), rfl⟩,
    fun hhead => ?_⟩
  · have hempty := congrArg List.length hnil
    rw [wholeDigits, List.length_take, List.length_nil] at hempty
    omega
  · rw [wholeDigits, List.head?_take, if_neg hne] at hhead
    rcases Nat.lt_or_ge places (digits 10 coefficient).length with hlong | hshort
    · have hnone : places + 1 - (digits 10 coefficient).length = 0 := by omega
      rw [padded, hnone] at hhead
      exact absurd hhead (head?_digits_ne_zero (by decide))
    · have hone : (padded coefficient places).length - places = 1 := by
        rw [padded, List.length_append, List.length_replicate]
        omega
      rw [wholeDigits, hone, List.take_one, hhead]
      rfl

/-- After the point stand as many digits as there are places. -/
theorem fraction_fractionDigits {places : Nat} (hpos : 0 < places) (coefficient : Nat) :
    Fraction (fractionDigits coefficient places)
      ('.' :: (fractionDigits coefficient places).map digitChar) := by
  have hlength := length_fractionDigits coefficient places
  exact .present ⟨List.ne_nil_of_length_pos (by omega),
    fun _ h => lt_ten_of_mem_padded (List.mem_of_mem_drop h), rfl⟩

theorem withPoint_numeral {coefficient : Nat} (hpos : 0 < coefficient) (places : Nat) :
    withPoint (numeral 10 coefficient) places =
      (wholeDigits coefficient places).map digitChar ++
        '.' :: (fractionDigits coefficient places).map digitChar := by
  have hpadded : List.replicate (places + 1 - (numeral 10 coefficient).length) '0' ++
      numeral 10 coefficient = (padded coefficient places).map digitChar := by
    rw [numeral, if_neg (by omega), padded, List.map_append, List.map_replicate, List.length_map]
    rfl
  rw [withPoint, hpadded, wholeDigits, fractionDigits, List.map_take, List.map_drop,
    List.length_map]

/-- The digits of a positive coefficient and zeros behind it are digits before a point. -/
theorem whole_append_zeros {coefficient : Nat} (hpos : 0 < coefficient) (zeros : Nat) :
    Whole (digits 10 coefficient ++ List.replicate zeros 0)
      (numeral 10 coefficient ++ List.replicate zeros '0') := by
  have hne := @digits_ne_nil 10 _ (by decide) hpos
  refine ⟨⟨by simp [hne], fun digit h => ?_, ?_⟩, fun hhead => ?_⟩
  · rcases List.mem_append.1 h with hdigit | hzero
    · exact lt_of_mem_digits (by decide) hdigit
    · rw [List.eq_of_mem_replicate hzero]
      decide
  · rw [numeral, if_neg (by omega), List.map_append, List.map_replicate]
    rfl
  · rw [List.head?_append_of_ne_nil _ hne] at hhead
    exact absurd hhead (head?_digits_ne_zero (by decide))

/-- The positional notation of a decimal is a plain numeral of the decimal's size. -/
theorem plain_positional {x : Decimal} (hpos : 0 < x.coefficient) :
    ∃ whole fraction, Plain ⟨false, whole, fraction, 0⟩ x.positional ∧
      ∀ negative, (⟨negative, whole, fraction, 0⟩ : Json.Numeral).size =
        x.coefficient * 10 ^ x.exponent := by
  obtain ⟨coefficient, zeros | places⟩ := x
  · refine ⟨digits 10 coefficient ++ List.replicate zeros 0, [], ?_, fun negative => ?_⟩
    · have hplain := Plain.positive (whole_append_zeros hpos zeros) .absent
      rwa [List.append_nil] at hplain
    · rw [@Json.Numeral.size_eq _ 0 rfl, List.append_nil, value_append,
        value_replicate_zero, value_digits (by decide), List.length_replicate]
      simp
  · refine ⟨wholeDigits coefficient (places + 1), fractionDigits coefficient (places + 1), ?_,
      fun negative => ?_⟩
    · have hplain := Plain.positive (whole_wholeDigits coefficient (places + 1))
        (fraction_fractionDigits (Nat.succ_pos places) coefficient)
      rwa [← withPoint_numeral hpos] at hplain
    · rw [Json.Numeral.size, wholeDigits_append_fractionDigits, value_padded,
        length_fractionDigits, Int.negSucc_eq, zero_sub, Nat.cast_succ]

end Decimal

end AtomicRules

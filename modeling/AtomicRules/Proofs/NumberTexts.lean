import AtomicRules.Proofs.EqualBlocks
import AtomicRules.Proofs.Numerals
import AtomicRules.Proofs.ShortestDecimals

/-!
# Numbers and their texts

A finite number is written as a plain numeral whose exact value rounds to it
(`Property.exists_plain_number`). The reader of number literals finds the numeral in front of any
unit, and a value rounds to equal numbers only, so that two numbers have one text exactly when they
are equal or both NaN (`Scalar.css_number_eq_iff`).
-/

namespace AtomicRules

namespace Json.Numeral

/-- The exact value of a literal. -/
def toRat (literal : Numeral) : ℚ :=
  signed literal.negative literal.size

end Json.Numeral

open Json.Grammar

namespace Binary64

variable {x : Binary64}

/-- The numeral of a finite number other than zero is plain, and its value rounds to the number. -/
theorem exists_plain_numeral (hfinite : x.isFinite = true) (hne : x.isZero = false) :
    ∃ literal, Plain literal x.numeral ∧ RoundsTo literal.toRat x := by
  have hpos : 0 < x.magnitude := Nat.pos_of_ne_zero (by simpa [isZero] using hne)
  have hnan : x.isNaN = false :=
    isNaN_eq_false_iff.2 (Nat.le_of_lt (by simpa [isFinite] using hfinite))
  obtain ⟨size, hnear, hcoefficient, hvalue⟩ := near_shortest hpos
  obtain ⟨whole, fraction, hplain, hsize⟩ := Decimal.plain_positional hcoefficient
  refine ⟨⟨x.negative, whole, fraction, 0⟩, ?_, ?_⟩
  · rw [numeral, if_neg (by simp [hne])]
    exact hplain.withSign x.negative
  · rw [Json.Numeral.toRat, hsize, hvalue]
    exact hnear.roundsTo hnan

/-- Zero rounds to zero of either sign. -/
theorem roundsTo_zero (hzero : x.isZero = true) : RoundsTo 0 x := by
  have hmagnitude : x.magnitude = 0 := by simpa [isZero] using hzero
  have hnear : Near 0 x.magnitude := by
    rw [hmagnitude]
    constructor <;> simp [units_zero]
  have hround := hnear.roundsTo (isNaN_eq_false_iff.2 (by omega))
  cases hnegative : x.negative <;> simpa [hnegative, signed] using hround

/-- A number that is neither finite nor a NaN is infinite. -/
theorem eq_infinity (hfinite : x.isFinite = false) (hnan : x.isNaN = false) :
    x.magnitude = infinity := by
  have hle := isNaN_eq_false_iff.1 hnan
  simp only [isFinite, decide_eq_false_iff_not] at hfinite
  omega

end Binary64

/-! ## The text of a number -/

namespace Property

variable {property : String} {x y : Binary64}

/-- What is written after the numeral of a finite number. -/
def unit (property : String) (x : Binary64) : List Char :=
  if x.isZero || unitless.contains property then [] else ['p', 'x']

/-- A finite number is written as a plain numeral that rounds to it, with a unit or without. -/
theorem exists_plain_number (property : String) (hfinite : x.isFinite = true) :
    ∃ literal text, Plain literal text ∧ (number property x).toList = text ++ unit property x ∧
      Binary64.RoundsTo literal.toRat x := by
  by_cases hzero : x.isZero = true
  · have hwhole : Whole [0] ['0'] := ⟨⟨by simp, by simp, rfl⟩, fun _ => rfl⟩
    have hvalue : (⟨false, [0], [], 0⟩ : Json.Numeral).toRat = 0 := by
      simp [Json.Numeral.toRat, Json.Numeral.size, signed, Text.Radix.value]
    refine ⟨⟨false, [0], [], 0⟩, ['0'] ++ [], .positive hwhole .absent, ?_, ?_⟩
    · simp [number, unit, hzero]
    · rw [hvalue]
      exact Binary64.roundsTo_zero hzero
  · have hne : x.isZero = false := by simpa using hzero
    obtain ⟨literal, hplain, hround⟩ := Binary64.exists_plain_numeral hfinite hne
    refine ⟨literal, x.numeral, hplain, ?_, hround⟩
    have hlist : (String.ofList x.numeral).toList = x.numeral := String.toList_ofList
    have hnumber : number property x =
        String.ofList x.numeral ++ if unitless.contains property then "" else "px" := by
      simp [number, hne, hfinite]
    rw [hnumber, String.toList_append, hlist, unit, hne, Bool.false_or]
    split <;> rfl

/-- A unit does not go on with a number. -/
theorem avoids_unit (property : String) (x : Binary64) :
    Json.Grammar.Avoids isOfNumber (unit property x) := by
  unfold unit
  split <;> intro c hc <;> cases hc
  decide

/-- The number of a finite number can be read off its text. -/
theorem run_numeral_number (property : String) (hfinite : x.isFinite = true) :
    ∃ literal rest, Json.Reader.run Json.Reader.numeral (number property x).toList =
      some (literal, rest) ∧ Binary64.RoundsTo literal.toRat x := by
  obtain ⟨literal, text, hplain, htext, hround⟩ := exists_plain_number property hfinite
  refine ⟨literal, unit property x, ?_, hround⟩
  rw [htext]
  exact Json.Reader.numeral_complete _ _ _ hplain.number (avoids_unit property x)

theorem number_of_not_isFinite (hinfinite : x.isFinite = false) :
    number property x = nonFinite x := by
  have hlarge : Binary64.infinity ≤ x.magnitude := by simpa [Binary64.isFinite] using hinfinite
  have hne : x.isZero = false := by
    have hpos : 0 < x.magnitude := Nat.lt_of_lt_of_le (by decide) hlarge
    simpa [Binary64.isZero] using Nat.ne_of_gt hpos
  simp [number, hne, hinfinite]

/-- The names of numbers that are not finite do not begin with a number. -/
theorem run_numeral_nonFinite (x : Binary64) :
    Json.Reader.run Json.Reader.numeral (nonFinite x).toList = none := by
  unfold nonFinite
  split
  · decide +kernel
  · split <;> decide +kernel

/-- A text is not that of a finite number and of one that is not finite. -/
theorem number_ne_of_isFinite (hx : x.isFinite = true) (hy : y.isFinite = false) :
    number property x ≠ number property y := by
  intro h
  obtain ⟨literal, rest, hread, -⟩ := run_numeral_number property hx
  rw [h, number_of_not_isFinite hy, run_numeral_nonFinite] at hread
  contradiction

theorem nonFinite_eq_nan_iff : nonFinite x = "NaN" ↔ x.isNaN = true := by
  unfold nonFinite
  split
  · next hnan => simp [hnan]
  · next hnan => split <;> simp [hnan]

/-- The name of a number that is not finite tells the infinities and the NaNs apart. -/
theorem nonFinite_inj (hx : x.isFinite = false) (hy : y.isFinite = false)
    (h : nonFinite x = nonFinite y) : (x == y) = true ∨ x.isNaN = true ∧ y.isNaN = true := by
  have hboth : x.isNaN = true ↔ y.isNaN = true := by
    rw [← nonFinite_eq_nan_iff, h, nonFinite_eq_nan_iff]
  cases hnan : x.isNaN with
  | true => exact .inr ⟨rfl, hboth.1 hnan⟩
  | false =>
      have hother : y.isNaN = false := by simpa [hnan] using hboth
      have hmagnitude : x.magnitude = y.magnitude :=
        (Binary64.eq_infinity hx hnan).trans (Binary64.eq_infinity hy hother).symm
      have hsign : x.negative = y.negative := by
        simp only [nonFinite, hnan, hother, Bool.false_eq_true, if_false] at h
        cases hxsign : x.negative <;> cases hysign : y.negative <;> simp [hxsign, hysign] at h ⊢
      obtain ⟨_, _, _⟩ := x
      obtain ⟨_, _, _⟩ := y
      subst hmagnitude hsign
      exact .inl (Binary64.beq_iff.2 ⟨hnan, .inl rfl⟩)

/-- Numbers with one text are equal or both NaN. -/
theorem number_inj (h : number property x = number property y) :
    (x == y) = true ∨ x.isNaN = true ∧ y.isNaN = true := by
  cases hx : x.isFinite <;> cases hy : y.isFinite
  · rw [number_of_not_isFinite hx, number_of_not_isFinite hy] at h
    exact nonFinite_inj hx hy h
  · exact absurd h.symm (number_ne_of_isFinite hy hx)
  · exact absurd h (number_ne_of_isFinite hx hy)
  · left
    obtain ⟨literal, rest, hread, hround⟩ := run_numeral_number property hx
    obtain ⟨other, after, hother, hyround⟩ := run_numeral_number property hy
    rw [← h, hread] at hother
    cases hother
    exact hround.beq hyround

/-- NaNs have one name. -/
theorem number_of_isNaN (h : x.isNaN = true) : number property x = "NaN" := by
  have hfinite : x.isFinite = false := by
    simp only [Binary64.isNaN, Binary64.isFinite, decide_eq_true_eq,
      decide_eq_false_iff_not] at h ⊢
    omega
  rw [number_of_not_isFinite hfinite, nonFinite, if_pos h]

/-- Numbers have one text exactly when they are equal or both NaN. -/
theorem number_eq_iff : number property x = number property y ↔
    (x == y) = true ∨ x.isNaN = true ∧ y.isNaN = true := by
  refine ⟨number_inj, ?_⟩
  rintro (hequal | ⟨hx, hy⟩)
  · exact number_of_beq hequal property
  · exact (number_of_isNaN hx).trans (number_of_isNaN hy).symm

end Property

/-- Two numbers in one place share an atom exactly when they are equal or both NaN. -/
theorem Scope.atom_number_eq_iff {scope : Scope} {property : String} {x y : Binary64} :
    scope.atom property (.number x) = scope.atom property (.number y) ↔
      (x == y) = true ∨ x.isNaN = true ∧ y.isNaN = true := by
  rw [← @Property.number_eq_iff property]
  simp [Scope.atom, Scalar.css]

namespace Scalar

/-- Two numbers are written alike exactly when they are equal or both NaN. A finite number other
than zero is written as a plain numeral whose exact value rounds to it, with a unit behind it unless
the property has none. -/
theorem css_number_eq_iff (property : String) (x y : Binary64) :
    ((Scalar.number x).css property = (Scalar.number y).css property ↔
      (x == y) = true ∨ x.isNaN = true ∧ y.isNaN = true) ∧
    (x.isFinite = true → x.isZero = false →
      ∃ literal text, Plain literal text ∧
        ((Scalar.number x).css property).toList =
          text ++ (if Property.unitless.contains property then [] else ['p', 'x']) ∧
        Binary64.RoundsTo literal.toRat x) := by
  refine ⟨Property.number_eq_iff, fun hfinite hne => ?_⟩
  obtain ⟨literal, text, hplain, htext, hround⟩ := Property.exists_plain_number property hfinite
  refine ⟨literal, text, hplain, ?_, hround⟩
  rwa [Property.unit, hne, Bool.false_or] at htext

/-- The smallest number above zero, with more than three hundred digits after the point. -/
theorem css_number_eq_iff_smallest :
    (Binary64.ofBits 1).isFinite = true ∧ (Binary64.ofBits 1).isZero = false ∧
      ∃ literal text, Plain literal text ∧
        ((Scalar.number (.ofBits 1)).css "width").toList = text ++ ['p', 'x'] ∧
        Binary64.RoundsTo literal.toRat (.ofBits 1) :=
  ⟨by decide, by decide,
    (css_number_eq_iff "width" (.ofBits 1) (.ofBits 1)).2 (by decide) (by decide)⟩

end Scalar

end AtomicRules

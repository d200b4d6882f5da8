import AtomicRules.Binary64.Scaling

/-!
# Number literals

A JSON number as it is written, and the binary64 number it stands for. The digits are gathered
into a coefficient of 64 bits. Digits that no longer fit are left out: before the point they still
count as powers of ten, after it they do not count at all. A value too large for the format is
refused, one too small becomes zero.
-/

namespace AtomicRules.Json

/-- A number literal: its sign, the digits before and after the point, and the exponent. -/
structure Numeral where
  negative : Bool
  whole : List Nat
  fraction : List Nat
  exponent : Int
deriving DecidableEq

namespace Numeral

/-- The largest coefficient. -/
def maxCoefficient : Nat := 0xffffffffffffffff

/-- Appends digits to a coefficient until one does not fit. The result is the coefficient and the
digits left out. -/
def gather (coefficient : Nat) : List Nat → Nat × List Nat
  | [] => (coefficient, [])
  | digit :: rest =>
      let next := 10 * coefficient + digit
      if next ≤ maxCoefficient then gather next rest else (coefficient, digit :: rest)

/-- The coefficient of a literal and the power of ten to go with it. -/
def parts (literal : Numeral) : Nat × Int :=
  let (whole, beyond) := gather 0 literal.whole
  let (coefficient, dropped) := gather whole literal.fraction
  let places := literal.fraction.length - dropped.length
  (coefficient, literal.exponent + beyond.length - places)

/-- The number of a literal, unless its value is too large. -/
def toBinary64? (literal : Numeral) : Option Binary64 :=
  match h : Binary64.scaled literal.parts.1 literal.parts.2 with
  | none => none
  | some magnitude => some ⟨literal.negative, magnitude, Binary64.scaled_lt h⟩

/-- A coefficient that fits stays within 64 bits. -/
theorem gather_le {coefficient : Nat} (digits : List Nat) (h : coefficient ≤ maxCoefficient) :
    (gather coefficient digits).1 ≤ maxCoefficient := by
  induction digits generalizing coefficient with
  | nil => exact h
  | cons digit rest ih =>
      rw [gather]
      split
      · next fits => exact ih fits
      · exact h

/-- The first digit that does not fit ends the coefficient, even where the next one would fit. -/
example : gather 1844674407370955161 [6, 0] = (1844674407370955161, [6, 0]) := by decide +kernel

/-- A literal of more digits than fit counts the rest as powers of ten. -/
example : parts ⟨false, List.replicate 21 9, [], 0⟩ = (9999999999999999999, 2) := by
  decide +kernel

/-- The sign of zero is kept. -/
example : toBinary64? ⟨true, [0], [], 0⟩ = some (Binary64.ofBits 0x8000000000000000) := by
  decide +kernel

end Numeral

end AtomicRules.Json

import AtomicRules.Text.Radix

/-!
# Decimals

A coefficient times a power of ten, and its text in positional notation.
-/

namespace AtomicRules

/-- The decimal `coefficient · 10 ^ exponent`. -/
structure Decimal where
  coefficient : Nat
  exponent : Int
deriving DecidableEq, Inhabited

namespace Decimal

/-- The digits with a point in front of the last `places` of them, and with zeros in front where
there are too few. -/
def withPoint (digits : List Char) (places : Nat) : List Char :=
  let padded := List.replicate (places + 1 - digits.length) '0' ++ digits
  padded.take (padded.length - places) ++ '.' :: padded.drop (padded.length - places)

/-- The decimal in positional notation, whatever its size: a positive exponent adds zeros, a
negative one sets the point. -/
def positional (x : Decimal) : List Char :=
  let digits := Text.Radix.numeral 10 x.coefficient
  match x.exponent with
  | .ofNat zeros => digits ++ List.replicate zeros '0'
  | .negSucc places => withPoint digits (places + 1)

example : positional ⟨15, -1⟩ = "1.5".toList := by decide +kernel
example : positional ⟨15, 3⟩ = "15000".toList := by decide +kernel
example : positional ⟨15, -4⟩ = "0.0015".toList := by decide +kernel
example : positional ⟨15, -2⟩ = "0.15".toList := by decide +kernel

end Decimal

end AtomicRules

import AtomicRules.Text.Radix

/-!
# Class names

A class name is a stem and a number in base 36. Under one stem no two numbers share a name
(`make_inj`).
-/

namespace AtomicRules.ClassName

/-- The base that has all digits and small letters. -/
def base : Nat := 36

/-- The class name with the given number. -/
def make (stem : String) (number : Nat) : String :=
  stem ++ String.ofList (Text.Radix.numeral base number)

/-- Two numbers with one name under the same stem are the same. -/
theorem make_inj {stem : String} {m n : Nat} (h : make stem m = make stem n) : m = n := by
  have numerals : Text.Radix.numeral base m = Text.Radix.numeral base n := by
    simpa [make, String.ofList_inj] using h
  exact Text.Radix.numeral_inj (by decide) (by decide) numerals

example : make "t" 0 = "t0" := by decide +kernel
example : make "t" 36 = "t10" := by decide +kernel
example : make "_cxs" 1295 = "_cxszz" := by decide +kernel

end AtomicRules.ClassName

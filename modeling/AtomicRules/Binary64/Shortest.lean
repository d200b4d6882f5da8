import AtomicRules.Binary64.Basic
import AtomicRules.Decimal

/-!
# Shortest decimals

The decimal with the fewest digits that is read back as a given binary64 number, and of those the
nearest to it. The decimals with a given exponent form a grid, and the search goes from coarse
grids to fine ones. On each it tests the two neighbours of the number in exact arithmetic, so the
first grid with a hit has the fewest digits.
-/

namespace AtomicRules.Binary64

/-- The exponent of the finest grid is the negative of this. Every finite magnitude has a decimal
on that grid that is read back as it. -/
def finest : Nat := 324

/-- A decimal on a grid in the unit of comparison: `2 ^ -1075` over `10 ^ 324`. The grids are
numbered from the finest one up. -/
def gridPoint (coefficient grid : Nat) : Nat :=
  (coefficient * Nat.pow 10 grid) <<< 1075

/-- Twice a size in units of `2 ^ -1074`, in the unit of comparison. -/
def comparable (halfUnits : Nat) : Nat :=
  halfUnits * Nat.pow 10 finest

/-- A decimal on a grid is read back as the magnitude: it lies between the midpoints to the two
neighbours. A midpoint itself goes to the even magnitude. -/
def readsBack (magnitude coefficient grid : Nat) : Bool :=
  let low := comparable (units (magnitude - 1) + units magnitude)
  let high := comparable (units magnitude + units (magnitude + 1))
  let point := gridPoint coefficient grid
  if magnitude % 2 = 0 then low ≤ point && point ≤ high else low < point && point < high

/-- The coefficient on a grid that is read back as the magnitude and is nearest to it, the upper
one of two. -/
def onGrid? (magnitude grid : Nat) : Option Nat :=
  let exact := comparable (2 * units magnitude)
  let below := exact / gridPoint 1 grid
  let above := below + 1
  match readsBack magnitude below grid, readsBack magnitude above grid with
  | true, true =>
      some (if exact - gridPoint below grid < gridPoint above grid - exact then below else above)
  | true, false => some below
  | false, true => some above
  | false, false => none

/-- The first hit on a grid from the given one down. -/
def shortestFrom (magnitude : Nat) : Nat → Decimal
  | 0 => ⟨(onGrid? magnitude 0).getD 0, -finest⟩
  | grid + 1 =>
      match onGrid? magnitude (grid + 1) with
      | some coefficient => ⟨coefficient, (grid + 1 : Nat) - finest⟩
      | none => shortestFrom magnitude grid

/-- The coarsest grid worth a test. Ten to the grid is at most the magnitude's upper midpoint
there, and `2 ^ 500` is less than `10 ^ 151`. -/
def coarsest (magnitude : Nat) : Nat :=
  let high := comparable (units magnitude + units (magnitude + 1)) >>> 1075
  (high.log2 + 1) * 151 / 500

/-- The shortest decimal that is read back as a finite magnitude other than zero. -/
def shortest (magnitude : Nat) : Decimal :=
  shortestFrom magnitude (coarsest magnitude)

/-- The number as a decimal numeral, with a minus sign if it is negative. -/
def numeral (x : Binary64) : List Char :=
  let sign := if x.negative then ['-'] else []
  if x.isZero then sign ++ ['0'] else sign ++ (shortest x.magnitude).positional

example : numeral (ofBits 0x3fb999999999999a) = "0.1".toList := by decide +kernel
example : numeral (ofBits 0xc000000000000000) = "-2".toList := by decide +kernel
example : shortest 1 = ⟨5, -324⟩ := by decide +kernel
example : shortest 0x7fefffffffffffff = ⟨17976931348623157, 292⟩ := by decide +kernel

end AtomicRules.Binary64

/-!
# Sets of code points

A character property is a table of ranges of code points. `CodePoints.contains` says whether a
character has it.
-/

namespace AtomicRules.Text

/-- A set of characters, as inclusive ranges of code points. -/
structure CodePoints where
  ranges : List (Nat × Nat)

namespace CodePoints

/-- The character lies in one of the ranges. -/
def contains (set : CodePoints) (c : Char) : Bool :=
  set.ranges.any fun (first, last) => first ≤ c.toNat && c.toNat ≤ last

/-- Membership is a matter of lying between the two ends of some range. -/
theorem contains_iff {set : CodePoints} {c : Char} :
    set.contains c ↔ ∃ range ∈ set.ranges, range.1 ≤ c.toNat ∧ c.toNat ≤ range.2 := by
  simp [contains]

end CodePoints

end AtomicRules.Text

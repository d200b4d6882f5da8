/-!
# Live sheets

A live sheet takes rules one by one and may refuse any of them. What it does is its own affair: a
`LiveSheet` only has a number of rules and an answer to each rule offered. A `SheetHost` creates
sheets.
-/

namespace AtomicRules

/-- A reason why a live sheet does not take a rule. -/
inductive Refusal where
  /-- The sheet does not support the rule. -/
  | unsupported (rule reason : String)
  /-- The sheet takes no rules at all. -/
  | unavailable
deriving DecidableEq

/-- The message that reports the refusal. -/
def Refusal.message : Refusal → String
  | .unsupported rule reason => "rule not supported: " ++ rule ++ " (" ++ reason ++ ")"
  | .unavailable => "stylesheet unavailable"

/-- Sheets that rules can be inserted into. -/
class LiveSheet (σ : Type) where
  /-- The number of rules in the sheet. -/
  ruleCount : σ → Nat
  /-- Inserts a rule at an index, if the sheet takes it. -/
  insertRule : (rule : String) → (index : Nat) → StateM σ (Except Refusal Unit)

/-- Hosts of sheets. -/
class SheetHost (η : Type) (σ : outParam Type) where
  /-- Creates a sheet whose element has the given nonce. -/
  createSheet : (nonce? : Option String) → StateM η σ

end AtomicRules

/-!
# Settings

What is settled about a session when it starts.
-/

namespace AtomicRules

/-- The settings of a session. Sessions whose rules end up in one document should have different
stems. -/
structure Settings where
  /-- The beginning of all class names. -/
  stem : String := "t"
  /-- The nonce of the live sheet, instead of one from the page. -/
  nonce? : Option String := none
  /-- A journal is kept of the live sheet's answers. -/
  debug : Bool := false
  /-- No live sheet is created. -/
  memoryOnly : Bool := false
deriving DecidableEq

/-- The two switches as bits, `debug` the lower one. -/
def Settings.flagBits (settings : Settings) : Nat :=
  settings.debug.toNat + 2 * settings.memoryOnly.toNat

end AtomicRules

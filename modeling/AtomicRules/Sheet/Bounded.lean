import AtomicRules.Sheet.Live

/-!
# Sheets with little room

A live sheet that takes rules until it is full, and a host that creates such sheets.
-/

namespace AtomicRules

/-- A sheet with room for some rules. -/
structure BoundedSheet where
  room : Nat
  rules : List String := []
deriving DecidableEq

/-- A sheet that is full takes no more rules. -/
instance : LiveSheet BoundedSheet where
  ruleCount sheet := sheet.rules.length
  insertRule rule index sheet :=
    if sheet.rules.length < sheet.room then
      (.ok (), { sheet with rules := sheet.rules.insertIdx index rule })
    else (.error .unavailable, sheet)

/-- A host whose sheets all have the same room. -/
structure BoundedHost where
  room : Nat

instance : SheetHost BoundedHost BoundedSheet where
  createSheet _ host := (⟨host.room, []⟩, host)

end AtomicRules

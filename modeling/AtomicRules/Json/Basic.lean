import AtomicRules.Json.Numeral

/-!
# JSON documents

A JSON document as it is written, before numbers are rounded and repeated keys are merged.
-/

namespace AtomicRules

/-- A JSON value. Numbers keep their literal, and objects keep their members in the order of the
document, repeated keys included. -/
inductive Json where
  | null
  | bool (value : Bool)
  | number (literal : Json.Numeral)
  | string (value : String)
  | array (items : List Json)
  | object (members : List (String × Json))

instance : Inhabited Json := ⟨.null⟩

end AtomicRules

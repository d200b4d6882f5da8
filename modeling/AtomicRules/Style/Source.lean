import AtomicRules.Json.Reader
import AtomicRules.Style.Value

/-!
# Style blocks from JSON text

The style block that a JSON text describes. Keys keep the order of the document, a repeated key has
its first place and its last value, and numbers are rounded to binary64. The text must be one
well-formed document before its root is looked at, so a fault in the text is reported before a
root of the wrong kind.
-/

namespace AtomicRules

/-- A reason why a text gives no style block. -/
inductive SourceError where
  /-- The text is not one JSON document, nests too deep, or holds a number too large. -/
  | malformed
  /-- The root of the document is not an object. -/
  | rootNotObject (found : Kind)
deriving DecidableEq

/-- The message that reports the error. -/
def SourceError.message : SourceError → String
  | .malformed => "invalid style JSON"
  | .rootNotObject found => "style root must be an object, found " ++ found.name

namespace Json

mutual

/-- The style value of a document, unless it holds a number too large. -/
def toValue? : Json → Option Value
  | .null => some .null
  | .bool value => some (.bool value)
  | .number literal => literal.toBinary64?.map .number
  | .string value => some (.text value)
  | .array items => (itemsToValues? items).map .list
  | .object members => (membersToEntries? members).map fun entries => .block (Block.ofList entries)

/-- The style values of items. -/
def itemsToValues? : List Json → Option (List Value)
  | [] => some []
  | item :: rest => do
      let value ← toValue? item
      let values ← itemsToValues? rest
      return value :: values

/-- The style values of members with their keys. -/
def membersToEntries? : List (String × Json) → Option (List (String × Value))
  | [] => some []
  | (key, item) :: rest => do
      let value ← toValue? item
      let entries ← membersToEntries? rest
      return (key, value) :: entries

end

/-- The levels of arrays and objects that a source may have. -/
def maxDepth : Nat := 127

end Json

namespace Block

/-- The style block that a JSON text describes. -/
def read (source : String) : Except SourceError Block :=
  match (Json.read Json.maxDepth source).bind Json.toValue? with
  | none => .error .malformed
  | some (.block block) => .ok block
  | some root => .error (.rootNotObject root.kind)

end Block

end AtomicRules

import AtomicRules.Css.Atom
import AtomicRules.Css.Keyframes

/-!
# What a block asks for

A style block asks for a list of rules: an atom for every leaf under every piece of its key, and
a text for every animation. The blocks around a leaf make up its scope. A selector key adds to the
selector, a media key replaces the media query, and neighbours know nothing of each other.

`Block.requests` depends on the block alone, not on what was asked for before.
-/

namespace AtomicRules

/-- The media query and the selector pieces around a block. -/
structure Scope where
  media? : Option String := none
  selectors : List String := []
deriving DecidableEq

namespace Scope

/-- The scope of a block that is in no other. -/
def root : Scope := {}

/-- The scope inside a selector. -/
def addSelector (scope : Scope) (piece : String) : Scope :=
  { scope with selectors := scope.selectors ++ [piece] }

/-- The scope inside a media query. A query inside another one takes its place. -/
def setMedia (scope : Scope) (query : String) : Scope :=
  { scope with media? := some query }

/-- The atom of a leaf in the scope. -/
def atom (scope : Scope) (property : String) (leaf : Scalar) : Atom where
  media? := scope.media?
  selectors := scope.selectors
  property := property
  value := leaf.css property

end Scope

/-- Something that a style block asks for. -/
inductive Request where
  /-- A class with the rule of an atom. -/
  | atom (atom : Atom)
  /-- The rule of an animation, which needs no class. -/
  | keyframes (rule : String)
deriving DecidableEq

mutual

/-- What a value asks for under a piece of its key. A list asks for each of its own leaves. -/
def Value.requests (scope : Scope) (piece : String) : Value → List Request
  | .null => []
  | .bool _ => []
  | .text value => [.atom (scope.atom piece (.text value))]
  | .number value => [.atom (scope.atom piece (.number value))]
  | .list items => items.filterMap fun item =>
      item.scalar?.map fun leaf => .atom (scope.atom piece leaf)
  | .block block =>
      match Key.kind piece with
      | .keyframes => [.keyframes (block.keyframes piece)]
      | .media => block.requests (scope.setMedia piece)
      | .selector => block.requests (scope.addSelector (Key.selectorPiece piece))

/-- What a block asks for, in order. -/
def Block.requests (scope : Scope) : Block → List Request
  | ⟨entries⟩ => Block.requestsOfEntries scope entries

/-- What entries ask for. A value that is not blank is asked for under every piece of its key. -/
def Block.requestsOfEntries (scope : Scope) : List (String × Value) → List Request
  | [] => []
  | (key, value) :: rest =>
      let pieces := if value.isBlank then [] else Key.pieces key
      pieces.flatMap (fun piece => value.requests scope piece) ++
        Block.requestsOfEntries scope rest

end

@[simp] theorem Block.requestsOfEntries_nil (scope : Scope) :
    Block.requestsOfEntries scope [] = [] :=
  rfl

end AtomicRules

import AtomicRules.Css.ClassName
import AtomicRules.Css.Rule

/-!
# Atoms

An atom is one declaration in its context: the media query around it and the selector text after
the class name. Two leaves with equal atoms share a rule. Atoms are compared part by part, so no
character in one part can be taken for the border to the next.
-/

namespace AtomicRules

/-- A declaration with the media query and the selector pieces around it. -/
structure Atom where
  media? : Option String
  selectors : List String
  property : String
  value : String
deriving DecidableEq

namespace Atom

/-- The selector of the atom's rule under a class name. -/
def selector (atom : Atom) (name : String) : String :=
  "." ++ name ++ String.join atom.selectors

/-- The rule that gives the atom to the elements with a class name. -/
def rule (atom : Atom) (name : String) : String :=
  Rule.wrap atom.media?
    (Rule.labelled (atom.selector name) (Rule.declaration atom.property atom.value))

example : rule ⟨some "@media print", [":hover", " b"], "color", "red"⟩ "t0" =
    "@media print\x7b.t0:hover b\x7bcolor:red;\x7d\x7d" := by decide +kernel

end Atom

end AtomicRules

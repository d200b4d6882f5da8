/-!
# Page metadata

The `meta` elements of a page, and the nonce for style sheets that one of them may hold.
-/

namespace AtomicRules

/-- A `meta` element: its property, and the name and content of one of its attributes. -/
structure MetaElement where
  property : String
  name : String
  content : String
deriving DecidableEq

/-- The `meta` elements of a page, in order. -/
structure PageMeta where
  elements : List MetaElement

namespace PageMeta

/-- The content of an attribute, from the first element with the property. -/
def attribute? (page : PageMeta) (property name : String) : Option String :=
  (page.elements.find? fun element =>
    element.property == property && element.name == name).map (·.content)

/-- The nonce for style sheets. An empty one counts as none. -/
def nonce? (page : PageMeta) : Option String :=
  (page.attribute? "csp-nonce" "content").filter fun nonce => !nonce.isEmpty

end PageMeta

end AtomicRules

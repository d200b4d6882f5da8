import AtomicRules.Binary64.Shortest
import AtomicRules.Style.Value

/-!
# Properties and their values

How a leaf is written as the value of a property. A text stands as it is. A number is a decimal
numeral with the unit `px`, which zero and the unit-less properties go without.
-/

namespace AtomicRules.Property

/-- The properties whose numbers have no unit. -/
def unitless : List String := [
  "animation-iteration-count", "border-image-outset", "border-image-slice", "border-image-width",
  "box-flex", "box-flex-group", "box-ordinal-group", "column-count", "columns", "flex", "flex-grow",
  "flex-positive", "flex-shrink", "flex-negative", "flex-order", "-ms-flex", "-ms-flex-grow",
  "-ms-flex-positive", "-ms-flex-shrink", "-ms-flex-negative", "-ms-flex-order", "grid-row",
  "grid-row-end", "grid-row-span", "grid-row-start", "grid-column", "grid-column-end",
  "grid-column-span", "grid-column-start", "-ms-grid-row", "-ms-grid-row-end", "-ms-grid-row-span",
  "-ms-grid-row-start", "-ms-grid-column", "-ms-grid-column-end", "-ms-grid-column-span",
  "-ms-grid-column-start", "font-weight", "line-clamp", "line-height", "opacity", "order",
  "orphans", "tab-size", "widows", "z-index", "zoom", "fill-opacity", "flood-opacity",
  "stop-opacity", "stroke-dasharray", "stroke-dashoffset", "stroke-miterlimit", "stroke-opacity",
  "stroke-width"]

/-- A number that is not finite, by its name. -/
def nonFinite (x : Binary64) : String :=
  if x.isNaN then "NaN" else if x.negative then "-Infinity" else "Infinity"

/-- The number as a value of the property. -/
def number (property : String) (x : Binary64) : String :=
  if x.isZero then "0"
  else if !x.isFinite then nonFinite x
  else String.ofList x.numeral ++ if unitless.contains property then "" else "px"

end AtomicRules.Property

namespace AtomicRules.Scalar

/-- The leaf as a value of the property. -/
def css (property : String) : Scalar → String
  | .text value => value
  | .number value => Property.number property value

example : css "border-width" (.number (.ofInt 20)) = "20px" := by decide +kernel
example : css "-ms-flex-order" (.number (.ofInt 2)) = "2" := by decide +kernel
example : css "margin" (.number (.ofBits 0x8000000000000000)) = "0" := by decide +kernel
example : css "width" (.text "10em") = "10em" := rfl

end AtomicRules.Scalar

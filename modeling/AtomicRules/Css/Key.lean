import AtomicRules.Text.Lowercase
import AtomicRules.Text.WhiteSpace

/-!
# Keys

How a key of a style block is spelled in CSS, how a key with commas falls into pieces, and what a
key that holds a block stands for. `borderWidth` is spelled `border-width`, and a key that begins
with the vendor letters `ms` gets the hyphen that CSS has before them.
-/

namespace AtomicRules.Key

/-- The text with a hyphen before every capital of ASCII. -/
def hyphenate (key : List Char) : List Char :=
  key.flatMap fun c => if c.isUpper then ['-', c] else [c]

/-- The CSS spelling of a key: trimmed, hyphenated, in lower case. -/
def spell (key : List Char) : List Char :=
  let trimmed := Text.trim key
  let vendor := if ['m', 's'].isPrefixOf trimmed then ['-'] else []
  Text.lower (vendor ++ hyphenate trimmed)

/-- The CSS spelling of a key. -/
def normalize (key : String) : String :=
  String.ofList (spell key.toList)

/-- The keys that a key with commas stands for, in CSS spelling. -/
def pieces (key : String) : List String :=
  (key.toList.splitOn ',').map fun piece => String.ofList (spell piece)

/-- What a key that holds a block stands for. -/
inductive Kind where
  /-- An animation, such as `@keyframes spin`. -/
  | keyframes
  /-- A media query around the block, such as `@media print`. -/
  | media
  /-- A selector inside the current one, such as `&:hover` or `.icon`. -/
  | selector
deriving DecidableEq

/-- The kind of a key in CSS spelling, told from its beginning. -/
def kind (key : String) : Kind :=
  if "@keyframes".toList.isPrefixOf key.toList then .keyframes
  else if "@media".toList.isPrefixOf key.toList then .media
  else .selector

/-- The selector text of a key. A key with `&` goes on directly from the selector before it, any
other is a descendant of it. -/
def selectorPiece (key : String) : String :=
  match key.toList with
  | '&' :: rest => String.ofList rest
  | _ => " " ++ key

/-- A key without commas is its only piece. -/
theorem pieces_eq_singleton {key : String} (h : ',' ∉ key.toList) :
    pieces key = [normalize key] := by
  simp [pieces, normalize, List.splitOn_eq_singleton h]

example : normalize "TextText" = "-text-text" := by decide +kernel
example : normalize "  msGridRow\n" = "-ms-grid-row" := by decide +kernel
example : pieces "code, kbd,samp" = ["code", "kbd", "samp"] := by decide +kernel
example : kind "@mediaprint" = .media := by decide +kernel
example : selectorPiece ".icon" = " .icon" := by decide +kernel

end AtomicRules.Key

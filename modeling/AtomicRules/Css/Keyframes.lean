import AtomicRules.Css.Key
import AtomicRules.Css.Property
import AtomicRules.Css.Rule

/-!
# Keyframes

The text of an animation: its stages in order, each with the declarations of a block. A key inside
a stage is spelled as in CSS and never split at commas. A stage's own key stands as it is.
-/

namespace AtomicRules.Block

/-- The declarations of the block's leaves, in order. Entries that are no leaves are left out. -/
def declarations (block : Block) : String :=
  String.join <| block.entries.filterMap fun (key, value) =>
    value.scalar?.map fun leaf =>
      let property := Key.normalize key
      Rule.declaration property (leaf.css property)

/-- The rule of an animation whose stages are the block's entries. Entries that hold no block are
left out. -/
def keyframes (label : String) (stages : Block) : String :=
  Rule.labelled label <| String.join <| stages.entries.filterMap fun (stage, value) =>
    match value with
    | .block body => some (Rule.labelled stage body.declarations)
    | _ => none

example : keyframes "@keyframes spin"
    (ofList [("from", ofList [("marginTop", (0 : Int))]), ("to", ofList [("left", (-1 : Int))])]) =
    "@keyframes spin\x7bfrom\x7bmargin-top:0;\x7dto\x7bleft:-1px;\x7d\x7d" := by
  decide +kernel

end AtomicRules.Block

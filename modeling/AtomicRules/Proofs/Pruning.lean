import AtomicRules.Proofs.Calls
import AtomicRules.Proofs.Paths
import AtomicRules.Sheet.Bounded

/-!
# Blocks without blank values

`Block.prune` takes all blank values out of a block, on every level: entries of blocks, items of
lists and declarations of stages. A block and its pruned form ask for the same, and so compile
alike in every session, if no empty text stands in a list or in a stage (`compile_prune`). These
two are the only places where a blank value counts: an empty item is a leaf like any other, and an
empty declaration is written into its stage.
-/

namespace AtomicRules

mutual

/-- The value without the blank values inside it. -/
def Value.prune : Value → Value
  | .null => .null
  | .bool value => .bool value
  | .text value => .text value
  | .number value => .number value
  | .list items => .list (Value.pruneItems items)
  | .block block => .block block.prune
termination_by structural value => value

/-- The items that are not blank, without the blank values inside them. -/
def Value.pruneItems : List Value → List Value
  | [] => []
  | item :: rest =>
      if item.isBlank then Value.pruneItems rest else item.prune :: Value.pruneItems rest
termination_by structural items => items

/-- The block without its blank values, on every level. -/
def Block.prune : Block → Block
  | ⟨entries⟩ => ⟨Block.pruneEntries entries⟩
termination_by structural block => block

/-- The entries whose values are not blank, without the blank values inside these. -/
def Block.pruneEntries : List (String × Value) → List (String × Value)
  | [] => []
  | (key, value) :: rest =>
      if value.isBlank then Block.pruneEntries rest
      else (key, value.prune) :: Block.pruneEntries rest
termination_by structural entries => entries

end

namespace Value

/-- Pruning changes no leaf and makes none. -/
@[simp] theorem scalar?_prune (value : Value) : value.prune.scalar? = value.scalar? := by
  cases value <;> rfl

/-- Pruning makes no value blank. -/
@[simp] theorem isBlank_prune (value : Value) : value.prune.isBlank = value.isBlank := by
  cases value <;> rfl

/-- A value that is not blank holds the same leaf, and the empty text is the only one that a blank
value holds. -/
theorem leaf_unless_isBlank (value : Value) :
    (if value.isBlank then none else value.scalar?) =
      value.scalar?.filter fun leaf => leaf ≠ .text "" := by
  cases value with
  | text value => by_cases h : value = "" <;> simp [isBlank, scalar?, Option.filter, h]
  | null => rfl
  | bool value => cases value <;> rfl
  | number value => rfl
  | list items => rfl
  | block block => rfl

/-- Pruned items, without recursion. -/
theorem pruneItems_eq (items : List Value) :
    pruneItems items = (items.filter fun item => !item.isBlank).map prune := by
  induction items with
  | nil => rfl
  | cons item rest ih => cases h : item.isBlank <;> simp [pruneItems, h, ih]

end Value

/-- Pruned entries, without recursion. -/
theorem Block.pruneEntries_eq (entries : List (String × Value)) :
    pruneEntries entries =
      (entries.filter fun entry => !entry.2.isBlank).map fun entry => (entry.1, entry.2.prune) := by
  induction entries with
  | nil => rfl
  | cons entry rest ih =>
      obtain ⟨key, value⟩ := entry
      cases h : value.isBlank <;> simp [pruneEntries, h, ih]

/-- What is collected from the pruned entries is what is collected from the entries that are not
blank. -/
theorem Block.filterMap_entries_prune {β : Type} (collect : String × Value → Option β)
    (block : Block) :
    block.prune.entries.filterMap collect = block.entries.filterMap fun entry =>
      if entry.2.isBlank then none else collect (entry.1, entry.2.prune) := by
  obtain ⟨entries⟩ := block
  rw [prune, pruneEntries_eq, List.filterMap_map, List.filterMap_filter]
  congr 1
  funext entry
  cases entry.2.isBlank <;> rfl

/-! ## What is left of a path -/

/-- What is left of the end of a path: an empty leaf is dropped, and an animation is pruned. -/
def Target.prune? : Target → Option Target
  | .leaf value => if value = .text "" then none else some (.leaf value)
  | .animation stages => some (.animation stages.prune)

/-- What a path through a block asks for in the pruned block, if it still leads to an end there. -/
def Path.requestLeft? (scope : Scope) (path : Path) : Option Request :=
  path.target.prune?.map fun target => { path with target }.requestIn scope

namespace Path

variable {scope : Scope} {path : Path} {piece : String}

/-- A media piece in front of a path sets the media query of its scope, also after pruning. -/
theorem requestLeft?_within_of_media (hkind : Key.kind piece = .media) :
    (path.within piece).requestLeft? scope = path.requestLeft? (scope.setMedia piece) := by
  simp only [requestLeft?, ← requestIn_within_of_media hkind]
  rfl

/-- A selector piece in front of a path adds to the selectors of its scope, also after pruning. -/
theorem requestLeft?_within_of_selector (hkind : Key.kind piece = .selector) :
    (path.within piece).requestLeft? scope =
      path.requestLeft? (scope.addSelector (Key.selectorPiece piece)) := by
  simp only [requestLeft?, ← requestIn_within_of_selector hkind]
  rfl

/-- What does not look at positions is collected from the branches one after the other. -/
theorem filterMap_branch {α β : Type} {paths : α → List Path} {f : Path → Option β}
    (hf : ∀ index path, f (under index path) = f path) (index : Nat) (items : List α) :
    (branch paths index items).filterMap f =
      items.flatMap fun item => (paths item).filterMap f := by
  have hcollect (list : List Path) : list.filterMap f = (list.map f).filterMap id := by
    rw [List.filterMap_map, Function.id_comp]
  rw [hcollect, map_branch hf, List.filterMap_flatMap]
  simp only [hcollect]

end Path

/-- A pruned block asks for what is left of its paths if this is so inside its values. -/
theorem Block.requests_prune_of_forall {entries : List (String × Value)}
    (h : ∀ entry ∈ entries, entry.2.isBlank = false → ∀ scope piece,
      entry.2.prune.requests scope piece =
        (entry.2.paths piece).filterMap (Path.requestLeft? scope))
    (scope : Scope) :
    (Block.prune ⟨entries⟩).requests scope =
      (Block.paths ⟨entries⟩).filterMap (Path.requestLeft? scope) := by
  have hunder (index : Nat) (path : Path) :
      (path.under index).requestLeft? scope = path.requestLeft? scope := rfl
  rw [prune, requests, paths, pathsOfEntries_eq_branch, Path.filterMap_branch hunder]
  induction entries with
  | nil => rfl
  | cons entry rest ih =>
      obtain ⟨key, value⟩ := entry
      have hvalue := h (key, value) (by simp)
      rw [List.flatMap_cons, Path.filterMap_branch hunder,
        ← ih fun other hother => h other (by simp [hother])]
      cases hblank : value.isBlank with
      | true => simp [pruneEntries, hblank]
      | false => simp [pruneEntries, requestsOfEntries, hblank, hvalue hblank]

/-- A pruned value asks for what is left of the paths inside the value. -/
theorem Value.requests_prune {value : Value} (hblank : value.isBlank = false) (scope : Scope)
    (piece : String) :
    value.prune.requests scope piece =
      (value.paths piece).filterMap (Path.requestLeft? scope) := by
  -- only values that are not blank go on into the induction, as in the walk itself
  induction value using Value.induction generalizing scope piece with
  | null => rfl
  | bool => rfl
  | text value =>
      have hfilled : Scalar.text value ≠ .text "" := by
        rintro ⟨rfl⟩
        cases hblank
      simp [prune, requests, paths, Path.requestLeft?, Target.prune?, hfilled, Path.requestIn]
  | number value =>
      simp [prune, requests, paths, Path.requestLeft?, Target.prune?, Path.requestIn]
  | list items =>
      rw [prune, requests, paths, Path.filterMap_branch fun _ _ => rfl, pruneItems_eq,
        List.filterMap_map, List.filterMap_filter, List.filterMap_eq_flatMap_toList]
      congr 1
      funext item
      have hitem : (if !item.isBlank then item.prune.scalar?.map fun leaf =>
            Request.atom (scope.atom piece leaf) else none) =
          (if item.isBlank then none else item.scalar?).map fun leaf =>
            Request.atom (scope.atom piece leaf) := by
        cases item.isBlank <;> simp
      -- so an item is dropped for its leaf alone, as the path to it is
      rw [Function.comp, hitem, item.leaf_unless_isBlank]
      cases item.scalar? with
      | none => rfl
      | some leaf =>
          by_cases hempty : leaf = .text "" <;>
            simp [hempty, Path.requestLeft?, Target.prune?, Path.requestIn]
  | block entries ih =>
      have hentries := Block.requests_prune_of_forall ih
      cases hkind : Key.kind piece with
      | keyframes =>
          simp [prune, requests, paths, hkind, Path.requestLeft?, Target.prune?, Path.requestIn]
      | media =>
          simp only [prune, requests, paths, hkind, hentries, List.filterMap_map]
          congr 1
          funext path
          exact (Path.requestLeft?_within_of_media hkind).symm
      | selector =>
          simp only [prune, requests, paths, hkind, hentries, List.filterMap_map]
          congr 1
          funext path
          exact (Path.requestLeft?_within_of_selector hkind).symm

/-- A pruned block asks for what is left of its paths. -/
theorem Block.requests_prune (scope : Scope) (block : Block) :
    block.prune.requests scope = block.paths.filterMap (Path.requestLeft? scope) := by
  obtain ⟨entries⟩ := block
  exact requests_prune_of_forall (fun entry _ hblank => entry.2.requests_prune hblank) scope

/-! ## Texts that get shorter -/

/-- A label with different bodies gives different texts. -/
theorem Rule.labelled_inj {label body other : String} :
    labelled label body = labelled label other ↔ body = other := by
  simp [labelled]

namespace Text

/-- The text is the other one, or a shorter one. -/
def EqOrShorter (text other : String) : Prop :=
  text = other ∨ text.length < other.length

namespace EqOrShorter

variable {text other front otherFront : String}

/-- Put together, texts are the same as the others only if each of them is. -/
theorem append_eq_append_iff (hfront : EqOrShorter front otherFront) (h : EqOrShorter text other) :
    front ++ text = otherFront ++ other ↔ front = otherFront ∧ text = other := by
  refine ⟨fun happend => ?_, fun ⟨hsame, htext⟩ => by rw [hsame, htext]⟩
  have hlength := congrArg String.length happend
  rw [String.length_append, String.length_append] at hlength
  -- no text is longer than its counterpart, so one that is shorter cannot be made up for
  rcases hfront with rfl | hfront <;> rcases h with rfl | h
  · exact ⟨rfl, rfl⟩
  · omega
  · omega
  · omega

/-- Put together, texts are the same as the others, or shorter. -/
theorem append (hfront : EqOrShorter front otherFront) (h : EqOrShorter text other) :
    EqOrShorter (front ++ text) (otherFront ++ other) := by
  rcases hfront with rfl | hfront <;> rcases h with rfl | h
  · exact .inl rfl
  all_goals
    refine .inr ?_
    rw [String.length_append, String.length_append]
    omega

/-- A label in front of both texts makes no difference. -/
theorem labelled (label : String) (h : EqOrShorter text other) :
    EqOrShorter (Rule.labelled label text) (Rule.labelled label other) :=
  (append (.inl rfl) h).append (.inl rfl)

variable {α : Type} {f g : α → String} {items : List α}

/-- The texts of a list are the same as the others, or shorter, if each of them is. -/
theorem join (h : ∀ item ∈ items, EqOrShorter (f item) (g item)) :
    EqOrShorter (String.join (items.map f)) (String.join (items.map g)) := by
  induction items with
  | nil => exact .inl rfl
  | cons item rest ih =>
      rw [List.map_cons, List.map_cons, String.join_cons, String.join_cons]
      rw [List.forall_mem_cons] at h
      exact h.1.append (ih h.2)

/-- The texts of a list are the same as the others only if each of them is. -/
theorem join_eq_join_iff (h : ∀ item ∈ items, EqOrShorter (f item) (g item)) :
    String.join (items.map f) = String.join (items.map g) ↔ ∀ item ∈ items, f item = g item := by
  induction items with
  | nil => simp
  | cons item rest ih =>
      rw [List.forall_mem_cons] at h
      rw [List.map_cons, List.map_cons, String.join_cons, String.join_cons,
        append_eq_append_iff h.1 (join h.2), ih h.2, List.forall_mem_cons]

end EqOrShorter

/-- The texts that there are, put together. -/
theorem join_filterMap {α : Type} (f : α → Option String) (items : List α) :
    String.join (items.filterMap f) = String.join (items.map fun item => (f item).getD "") := by
  induction items with
  | nil => rfl
  | cons item rest ih => cases h : f item <;> simp [h, ih]

end Text

/-! ## Animations without blank values -/

/-- No declaration of a stage is empty. What is no block is no stage. -/
def Value.FilledStage : Value → Prop
  | .block body => ∀ entry ∈ body.entries, entry.2.scalar? ≠ some (.text "")
  | _ => True

/-- The end of a path is no empty leaf, or an animation without empty declarations. -/
def Target.Filled : Target → Prop
  | .leaf value => value ≠ .text ""
  | .animation stages => ∀ entry ∈ stages.entries, entry.2.FilledStage

instance : DecidablePred Value.FilledStage
  | .block body =>
      inferInstanceAs (Decidable (∀ entry ∈ body.entries, entry.2.scalar? ≠ some (.text "")))
  | .null | .bool _ | .text _ | .number _ | .list _ => .isTrue trivial

instance : DecidablePred Target.Filled
  | .leaf value => inferInstanceAs (Decidable (value ≠ .text ""))
  | .animation stages => inferInstanceAs (Decidable (∀ entry ∈ stages.entries, entry.2.FilledStage))

namespace Block

/-- The text of an entry's declaration, or no text where the entry is no leaf. -/
def declarationText (entry : String × Value) : String :=
  let property := Key.normalize entry.1
  (entry.2.scalar?.map fun leaf => Rule.declaration property (leaf.css property)).getD ""

/-- The text of an entry's declaration that is left after pruning. -/
def declarationLeft (entry : String × Value) : String :=
  if entry.2.isBlank then "" else declarationText entry

/-- The text of an entry's stage, whose declarations are written in some way, or no text where the
entry is no stage. -/
def stageText (write : Block → String) : String × Value → String
  | (stage, .block body) => Rule.labelled stage (write body)
  | _ => ""

/-- The declarations of a block, entry by entry. -/
theorem declarations_eq_join (body : Block) :
    body.declarations = String.join (body.entries.map declarationText) :=
  Text.join_filterMap _ _

/-- The declarations of a pruned block, entry by entry. -/
theorem declarations_prune_eq_join (body : Block) :
    body.prune.declarations = String.join (body.entries.map declarationLeft) := by
  rw [declarations, filterMap_entries_prune, Text.join_filterMap]
  congr 2
  funext entry
  unfold declarationLeft declarationText
  cases entry.2.isBlank <;> simp

/-- The rule of an animation, stage by stage. -/
theorem keyframes_eq_join (label : String) (stages : Block) :
    stages.keyframes label =
      Rule.labelled label (String.join (stages.entries.map (stageText declarations))) := by
  rw [keyframes, Text.join_filterMap]
  congr 3
  funext ⟨stage, value⟩
  cases value <;> rfl

/-- The rule of a pruned animation, stage by stage. -/
theorem keyframes_prune_eq_join (label : String) (stages : Block) :
    stages.prune.keyframes label =
      Rule.labelled label
        (String.join (stages.entries.map (stageText fun body => body.prune.declarations))) := by
  rw [keyframes, filterMap_entries_prune, Text.join_filterMap]
  congr 3
  funext ⟨stage, value⟩
  cases value with
  | block body => rfl
  | _ => simp [Value.prune, stageText]

/-- Pruning drops an empty declaration, which has at least the signs around its value. -/
theorem length_declarationLeft_lt {entry : String × Value}
    (h : entry.2.scalar? = some (.text "")) :
    (declarationLeft entry).length < (declarationText entry).length := by
  have hleft := entry.2.leaf_unless_isBlank
  rw [h] at hleft
  have hblank : entry.2.isBlank := by
    by_contra hfilled
    simp [hfilled, Option.filter] at hleft
  have hsigns : 0 < (":" : String).length := by decide
  simp only [declarationLeft, declarationText, hblank, h, Rule.declaration, if_true,
    Option.map_some, Option.getD_some, String.length_append, String.length_empty]
  omega

/-- Pruning drops no other declaration. -/
theorem declarationLeft_of_ne {entry : String × Value}
    (h : entry.2.scalar? ≠ some (.text "")) : declarationLeft entry = declarationText entry := by
  have hleft := entry.2.leaf_unless_isBlank
  unfold declarationLeft declarationText
  cases hblank : entry.2.isBlank with
  | false => rfl
  | true =>
      -- what is blank and not empty is no leaf, so there was no declaration
      cases hleaf : entry.2.scalar? with
      | none => rfl
      | some leaf =>
          have hfilled : leaf ≠ .text "" := fun hempty => h (hleaf.trans (congrArg some hempty))
          simp [hblank, hleaf, hfilled, Option.filter] at hleft

/-- Pruning changes no declaration or makes it shorter. -/
theorem declarationLeft_eqOrShorter (entry : String × Value) :
    Text.EqOrShorter (declarationLeft entry) (declarationText entry) := by
  by_cases h : entry.2.scalar? = some (.text "")
  · exact .inr (length_declarationLeft_lt h)
  · exact .inl (declarationLeft_of_ne h)

/-- Pruning changes a declaration if and only if this is empty. -/
theorem declarationLeft_eq_iff (entry : String × Value) :
    declarationLeft entry = declarationText entry ↔ entry.2.scalar? ≠ some (.text "") := by
  refine ⟨fun hsame hempty => ?_, declarationLeft_of_ne⟩
  exact Nat.ne_of_lt (length_declarationLeft_lt hempty) (congrArg String.length hsame)

/-- Pruning changes the declarations of a block or makes them shorter. -/
theorem declarations_prune_eqOrShorter (body : Block) :
    Text.EqOrShorter body.prune.declarations body.declarations := by
  rw [declarations_prune_eq_join, declarations_eq_join]
  exact .join fun entry _ => declarationLeft_eqOrShorter entry

/-- Pruning changes the declarations of a block if and only if one of them is empty. -/
theorem declarations_prune_eq_iff (body : Block) :
    body.prune.declarations = body.declarations ↔
      ∀ entry ∈ body.entries, entry.2.scalar? ≠ some (.text "") := by
  rw [declarations_prune_eq_join, declarations_eq_join,
    Text.EqOrShorter.join_eq_join_iff fun entry _ => declarationLeft_eqOrShorter entry]
  exact forall₂_congr fun entry _ => declarationLeft_eq_iff entry

/-- Pruning changes no stage or makes it shorter. -/
theorem stageText_prune_eqOrShorter (entry : String × Value) :
    Text.EqOrShorter (stageText (fun body => body.prune.declarations) entry)
      (stageText declarations entry) := by
  obtain ⟨stage, value⟩ := entry
  cases value with
  | block body => exact (declarations_prune_eqOrShorter body).labelled stage
  | _ => exact .inl rfl

/-- Pruning changes a stage if and only if one of its declarations is empty. -/
theorem stageText_prune_eq_iff (entry : String × Value) :
    stageText (fun body => body.prune.declarations) entry = stageText declarations entry ↔
      entry.2.FilledStage := by
  obtain ⟨stage, value⟩ := entry
  cases value with
  | block body =>
      rw [stageText, stageText, Rule.labelled_inj, declarations_prune_eq_iff]
      rfl
  | _ => exact iff_of_true rfl trivial

/-- Pruning changes the rule of an animation if and only if a declaration in it is empty. -/
theorem keyframes_prune_eq_iff (label : String) (stages : Block) :
    stages.prune.keyframes label = stages.keyframes label ↔
      ∀ entry ∈ stages.entries, entry.2.FilledStage := by
  rw [keyframes_prune_eq_join, keyframes_eq_join, Rule.labelled_inj,
    Text.EqOrShorter.join_eq_join_iff fun entry _ => stageText_prune_eqOrShorter entry]
  exact forall₂_congr fun entry _ => stageText_prune_eq_iff entry

end Block

/-! ## Blocks that pruning does not change -/

/-- A path asks for the same after pruning if and only if its end is filled. -/
theorem Path.requestLeft?_eq_iff (scope : Scope) (path : Path) :
    path.requestLeft? scope = some (path.requestIn scope) ↔ path.target.Filled := by
  obtain ⟨position, passed, last, target⟩ := path
  cases target with
  | leaf leaf =>
      by_cases h : leaf = .text "" <;> simp [requestLeft?, Target.prune?, Target.Filled, h]
  | animation stages =>
      simp [requestLeft?, Target.prune?, requestIn, Target.Filled, Block.keyframes_prune_eq_iff]

/-- Pruning changes what a block asks for if and only if a path leads to an empty text. -/
theorem Block.requests_prune_eq_iff (block : Block) :
    block.prune.requests Scope.root = block.requests Scope.root ↔
      ∀ path, block.Leads path → path.target.Filled := by
  rw [requests_prune, requests_root_eq_map, List.filterMap_eq_map_iff_forall_eq_some]
  refine forall_congr' fun path => ?_
  rw [block.mem_paths_iff, ← Path.requestIn_root, Path.requestLeft?_eq_iff]

namespace Session

/-- A pruned block asks for what is left of the paths through the block. This is what the block
itself asks for if and only if every path leads to a leaf that is not empty or to an animation
without empty declarations. Then, in every session, both get the same classes and leave the same
session behind. -/
theorem compile_prune (block : Block) :
    block.prune.requests Scope.root = block.paths.filterMap (Path.requestLeft? Scope.root) ∧
    (block.prune.requests Scope.root = block.requests Scope.root ↔
      ∀ path, block.Leads path → path.target.Filled) ∧
    ((∀ path, block.Leads path → path.target.Filled) →
      ∀ (σ : Type) [LiveSheet σ],
        (compile block.prune : StateM (Session σ) (List String)) = compile block) := by
  refine ⟨block.requests_prune Scope.root, block.requests_prune_eq_iff, fun hfilled σ _ => ?_⟩
  rw [compile_eq_answerAll, compile_eq_answerAll, block.requests_prune_eq_iff.2 hfilled]

/-- Null, false and the empty text may stand in every block, and null and false also in lists and
stages. -/
theorem compile_prune_blank :
    let stage := Block.ofList [("top", Value.bool false), ("left", toValue (1 : Int))]
    let inner := (Block.empty.insert "color" "").insert "top" [Value.null, toValue (0 : Int)]
    let block := (((Block.empty.insert "margin" Value.null).insert "&:hover" inner).insert
      "@keyframes spin" (Block.empty.insert "to" stage)).insert "color" "red"
    (∀ path, block.Leads path → path.target.Filled) ∧
      block.prune.size = 3 ∧
      (compile block.prune : StateM (Session BoundedSheet) (List String)) = compile block := by
  intro stage inner block
  have hfilled : ∀ path, block.Leads path → path.target.Filled := by
    have hpaths : ∀ path ∈ block.paths, path.target.Filled := by decide +kernel
    exact fun path hpath => hpaths path ((block.mem_paths_iff path).2 hpath)
  exact ⟨hfilled, by decide +kernel, (compile_prune block).2.2 hfilled BoundedSheet⟩

/-- An empty text in a list gets a class of its own, and one in a stage is written down. -/
theorem not_compile_prune :
    let fresh : Session BoundedSheet := start {}
    let list := Block.empty.insert "display" ["", "flex"]
    let stages := Block.empty.insert "to"
      ((Block.empty.insert "color" "").insert "opacity" (0 : Int))
    let animation := Block.empty.insert "@keyframes fade" stages
    (compile list fresh).1 = ["t0", "t1"] ∧ (compile list.prune fresh).1 = ["t0"] ∧
      (compile animation fresh).2.rules =
        ["@keyframes fade\x7bto\x7bcolor:;opacity:0;\x7d\x7d"] ∧
      (compile animation.prune fresh).2.rules =
        ["@keyframes fade\x7bto\x7bopacity:0;\x7d\x7d"] := by
  decide +kernel

end Session

end AtomicRules

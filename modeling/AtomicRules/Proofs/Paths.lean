import AtomicRules.Proofs.Walk
import Mathlib.Data.List.Basic

/-!
# Paths through a block

A path through a block chooses an entry and a piece of its key on every level, goes on inside the
block that stands there, and ends at a leaf or at an animation. `Block.Leads` says which paths
there are and `Path.request` what a path asks for, both without a walk. `requests_eq_map_paths`
says that the walk asks for exactly these, in the order of their positions.
-/

namespace AtomicRules

/-- What a path ends at. -/
inductive Target where
  | leaf (leaf : Scalar)
  | animation (stages : Block)

/-- A path: the indices that were chosen, the pieces that were passed, the piece over the end, and
the end. -/
structure Path where
  position : List Nat
  passed : List String
  last : String
  target : Target

mutual

/-- The path leads to its end inside a value that stands under a piece. -/
inductive Value.Leads : String → Value → Path → Prop where
  | leaf {piece : String} {value : Value} {leaf : Scalar} (hleaf : value.scalar? = some leaf) :
      Value.Leads piece value ⟨[], [], piece, .leaf leaf⟩
  | item {piece : String} {items : List Value} {k : Nat} {item : Value} {leaf : Scalar}
      (hitem : items[k]? = some item) (hleaf : item.scalar? = some leaf) :
      Value.Leads piece (.list items) ⟨[k], [], piece, .leaf leaf⟩
  | animation {piece : String} {stages : Block} (hkind : Key.kind piece = .keyframes) :
      Value.Leads piece (.block stages) ⟨[], [], piece, .animation stages⟩
  | inside {piece : String} {block : Block} {path : Path} (hkind : Key.kind piece ≠ .keyframes)
      (hpath : Block.Leads block path) :
      Value.Leads piece (.block block) { path with passed := piece :: path.passed }

/-- The path leads to its end inside a block: it chooses an entry that is not blank and a piece of
its key, and goes on inside the value. -/
inductive Block.Leads : Block → Path → Prop where
  | entry {block : Block} {i j : Nat} {key piece : String} {value : Value} {path : Path}
      (hentry : block.entries[i]? = some (key, value)) (hblank : value.isBlank = false)
      (hpiece : (Key.pieces key)[j]? = some piece) (hpath : Value.Leads piece value path) :
      Block.Leads block { path with position := i :: j :: path.position }

end

namespace Path

/-- The passed pieces of a kind. -/
def around (path : Path) (kind : Key.Kind) : List String :=
  path.passed.filter fun piece => Key.kind piece = kind

/-- What a path asks for. The media query is the last one around the leaf, the selector has the
text of all selectors around it. -/
def request (path : Path) : Request :=
  match path.target with
  | .leaf leaf => .atom {
      media? := (path.around .media).getLast?
      selectors := (path.around .selector).map Key.selectorPiece
      property := path.last
      value := leaf.css path.last }
  | .animation stages => .keyframes (stages.keyframes path.last)

/-- The path that begins with one more index. -/
def under (index : Nat) (path : Path) : Path :=
  { path with position := index :: path.position }

/-- The path that begins with one more piece. -/
def within (piece : String) (path : Path) : Path :=
  { path with passed := piece :: path.passed }

/-- The paths in the items of a list, numbered from an index. -/
def branch {α : Type} (paths : α → List Path) : Nat → List α → List Path
  | _, [] => []
  | index, item :: rest => (paths item).map (under index) ++ branch paths (index + 1) rest

end Path

mutual

/-- The paths inside a value that stands under a piece. -/
def Value.paths (piece : String) : Value → List Path
  | .null => []
  | .bool _ => []
  | .text value => [⟨[], [], piece, .leaf (.text value)⟩]
  | .number value => [⟨[], [], piece, .leaf (.number value)⟩]
  | .list items =>
      Path.branch (fun item => item.scalar?.toList.map fun leaf => ⟨[], [], piece, .leaf leaf⟩) 0
        items
  | .block block =>
      match Key.kind piece with
      | .keyframes => [⟨[], [], piece, .animation block⟩]
      | .media => block.paths.map (Path.within piece)
      | .selector => block.paths.map (Path.within piece)

/-- The paths inside a block. -/
def Block.paths : Block → List Path
  | ⟨entries⟩ => Block.pathsOfEntries 0 entries

/-- The paths inside entries that are numbered from an index. -/
def Block.pathsOfEntries : Nat → List (String × Value) → List Path
  | _, [] => []
  | index, (key, value) :: rest =>
      let pieces := if value.isBlank then [] else Key.pieces key
      (Path.branch (fun piece => value.paths piece) 0 pieces).map (Path.under index) ++
        Block.pathsOfEntries (index + 1) rest

end

namespace Path

variable {α : Type} {paths : α → List Path}

/-! ## Numbered branches -/

/-- The paths come in the order of their positions, and none comes twice. -/
def Ordered (paths : List Path) : Prop :=
  paths.Pairwise fun path later => path.position < later.position

/-- One more index in front changes no order. -/
theorem Ordered.map_under {list : List Path} (h : Ordered list) (index : Nat) :
    Ordered (list.map (under index)) := by
  refine List.pairwise_map.2 (h.imp ?_)
  intro path later hlt
  exact List.cons_lt_cons_iff.2 (.inr ⟨rfl, hlt⟩)

/-- One more piece in front changes no order. -/
theorem Ordered.map_within {list : List Path} (h : Ordered list) (piece : String) :
    Ordered (list.map (within piece)) :=
  List.pairwise_map.2 h

/-- A path in numbered branches begins with the number of its branch. -/
theorem mem_branch {index : Nat} {items : List α} {path : Path} :
    path ∈ branch paths index items ↔
      ∃ i item inner, items[i]? = some item ∧ inner ∈ paths item ∧
        path = inner.under (index + i) := by
  induction items generalizing index with
  | nil => simp [branch]
  | cons first rest ih =>
      rw [branch, List.mem_append, List.mem_map, ih]
      constructor
      · rintro (⟨inner, hinner, rfl⟩ | ⟨i, item, inner, hitem, hinner, rfl⟩)
        · exact ⟨0, first, inner, rfl, hinner, rfl⟩
        · exact ⟨i + 1, item, inner, hitem, hinner, by rw [Nat.add_right_comm, Nat.add_assoc]⟩
      · rintro ⟨i, item, inner, hitem, hinner, rfl⟩
        cases i with
        | zero =>
            cases hitem
            exact .inl ⟨inner, hinner, rfl⟩
        | succ i =>
            exact .inr ⟨i, item, inner, hitem, hinner, by rw [Nat.add_right_comm, Nat.add_assoc]⟩

/-- Branches that are in order each are in order together. -/
theorem ordered_branch {items : List α} (h : ∀ item ∈ items, Ordered (paths item)) (index : Nat) :
    Ordered (branch paths index items) := by
  induction items generalizing index with
  | nil => exact .nil
  | cons first rest ih =>
      refine List.pairwise_append.2 ⟨(h first (by simp)).map_under index,
        ih (fun item hitem => h item (by simp [hitem])) (index + 1), ?_⟩
      intro path hpath later hlater
      -- the first indices of paths in different branches are different already
      obtain ⟨inner, -, rfl⟩ := List.mem_map.1 hpath
      obtain ⟨i, _, laterInner, -, -, rfl⟩ := mem_branch.1 hlater
      exact List.cons_lt_cons_iff.2 (.inl (by omega))

/-- What does not look at positions sees the branches one after the other. -/
theorem map_branch {β : Type} {f : Path → β} (hf : ∀ index path, f (under index path) = f path)
    (index : Nat) (items : List α) :
    (branch paths index items).map f = items.flatMap fun item => (paths item).map f := by
  induction items generalizing index with
  | nil => rfl
  | cons first rest ih =>
      have hunder : f ∘ under index = f := funext (hf index)
      rw [branch, List.map_append, ih, List.map_map, hunder, List.flatMap_cons]

end Path

/-- The paths inside entries are numbered branches of branches. -/
theorem Block.pathsOfEntries_eq_branch (index : Nat) (entries : List (String × Value)) :
    Block.pathsOfEntries index entries = Path.branch (fun (key, value) =>
      Path.branch (fun piece => value.paths piece) 0
        (if value.isBlank then [] else Key.pieces key)) index entries := by
  induction entries generalizing index with
  | nil => rfl
  | cons entry rest ih =>
      obtain ⟨key, value⟩ := entry
      rw [pathsOfEntries, ih, Path.branch]

/-- An animation is the end of its path. -/
theorem Value.paths_block_of_keyframes {piece : String} {block : Block}
    (hkind : Key.kind piece = .keyframes) :
    (Value.block block).paths piece = [⟨[], [], piece, .animation block⟩] := by
  rw [paths, hkind]

/-- The paths go on inside any other block. -/
theorem Value.paths_block_of_ne {piece : String} {block : Block}
    (hkind : Key.kind piece ≠ .keyframes) :
    (Value.block block).paths piece = block.paths.map (Path.within piece) := by
  rw [paths]
  cases h : Key.kind piece with
  | keyframes => exact absurd h hkind
  | media => rfl
  | selector => rfl

/-! ## The order of the paths -/

/-- The paths inside a block are in order if those inside its values are. -/
theorem Block.ordered_paths_of_forall {entries : List (String × Value)}
    (h : ∀ entry ∈ entries, ∀ piece, Path.Ordered (entry.2.paths piece)) :
    Path.Ordered (Block.paths ⟨entries⟩) := by
  rw [paths, pathsOfEntries_eq_branch]
  apply Path.ordered_branch
  intro entry hentry
  apply Path.ordered_branch
  intro piece _
  exact h entry hentry piece

/-- The paths inside a value are in order. -/
theorem Value.ordered_paths (piece : String) (value : Value) :
    Path.Ordered (value.paths piece) := by
  induction value using Value.induction generalizing piece with
  | null => exact .nil
  | bool => exact .nil
  | text => exact List.pairwise_singleton _ _
  | number => exact List.pairwise_singleton _ _
  | list items =>
      apply Path.ordered_branch
      intro item _
      cases item.scalar? with
      | none => exact .nil
      | some => exact List.pairwise_singleton _ _
  | block entries ih =>
      by_cases hkind : Key.kind piece = .keyframes
      · rw [paths_block_of_keyframes hkind]
        exact List.pairwise_singleton _ _
      · rw [paths_block_of_ne hkind]
        exact (Block.ordered_paths_of_forall ih).map_within piece

/-- The paths inside a block are in order. -/
theorem Block.ordered_paths (block : Block) : Path.Ordered block.paths := by
  obtain ⟨entries⟩ := block
  exact ordered_paths_of_forall fun entry _ piece => entry.2.ordered_paths piece

/-! ## All paths -/

/-- The paths inside a block are all there are if this is so inside its values. -/
theorem Block.mem_paths_iff_of_forall {entries : List (String × Value)}
    (h : ∀ entry ∈ entries, ∀ piece path, path ∈ entry.2.paths piece ↔ entry.2.Leads piece path)
    (path : Path) : path ∈ Block.paths ⟨entries⟩ ↔ Block.Leads ⟨entries⟩ path := by
  rw [paths, pathsOfEntries_eq_branch, Path.mem_branch]
  constructor
  · rintro ⟨i, ⟨key, value⟩, branched, hentry, hbranched, rfl⟩
    obtain ⟨j, piece, inner, hpiece, hinner, rfl⟩ := Path.mem_branch.1 hbranched
    have hleads := (h (key, value) (List.mem_of_getElem? hentry) piece inner).1 hinner
    cases hblank : value.isBlank with
    | true => simp [hblank] at hpiece
    | false =>
        have hpiece : (Key.pieces key)[j]? = some piece := by simpa [hblank] using hpiece
        rw [Nat.zero_add, Nat.zero_add]
        exact .entry hentry hblank hpiece hleads
  · intro hleads
    cases hleads with
    | @entry _ i j key piece value inner hentry hblank hpiece hinner =>
        refine ⟨i, (key, value), inner.under j, hentry, ?_, by rw [Nat.zero_add]; rfl⟩
        refine Path.mem_branch.2 ⟨j, piece, inner, ?_, ?_, by rw [Nat.zero_add]⟩
        · simpa [hblank] using hpiece
        · exact (h (key, value) (List.mem_of_getElem? hentry) piece inner).2 hinner

/-- The paths inside a value are exactly those that lead to an end there. -/
theorem Value.mem_paths_iff (piece : String) (value : Value) (path : Path) :
    path ∈ value.paths piece ↔ value.Leads piece path := by
  induction value using Value.induction generalizing piece path with
  | null =>
      refine ⟨nofun, ?_⟩
      rintro ⟨hleaf⟩
      cases hleaf
  | bool value =>
      refine ⟨nofun, ?_⟩
      rintro ⟨hleaf⟩
      cases hleaf
  | text value =>
      rw [paths, List.mem_singleton]
      constructor
      · rintro rfl
        exact .leaf rfl
      · rintro ⟨hleaf⟩
        cases hleaf
        rfl
  | number value =>
      rw [paths, List.mem_singleton]
      constructor
      · rintro rfl
        exact .leaf rfl
      · rintro ⟨hleaf⟩
        cases hleaf
        rfl
  | list items =>
      rw [paths, Path.mem_branch]
      constructor
      · rintro ⟨k, item, inner, hitem, hinner, rfl⟩
        obtain ⟨leaf, hleaf, rfl⟩ := List.mem_map.1 hinner
        rw [Nat.zero_add]
        exact .item hitem (Option.mem_toList.1 hleaf)
      · intro hleads
        cases hleads with
        | leaf hleaf => cases hleaf
        | @item _ _ k item leaf hitem hleaf =>
            refine ⟨k, item, ⟨[], [], piece, .leaf leaf⟩, hitem, ?_, by rw [Nat.zero_add]; rfl⟩
            exact List.mem_map_of_mem (Option.mem_toList.2 hleaf)
  | block entries ih =>
      have hentries := Block.mem_paths_iff_of_forall ih
      by_cases hkind : Key.kind piece = .keyframes
      · rw [paths_block_of_keyframes hkind, List.mem_singleton]
        constructor
        · rintro rfl
          exact .animation hkind
        · intro hleads
          cases hleads with
          | leaf hleaf => cases hleaf
          | animation => rfl
          | inside hother => exact absurd hkind hother
      · rw [paths_block_of_ne hkind, List.mem_map]
        constructor
        · rintro ⟨inner, hinner, rfl⟩
          exact .inside hkind ((hentries inner).1 hinner)
        · intro hleads
          cases hleads with
          | leaf hleaf => cases hleaf
          | animation hother => exact absurd hother hkind
          | @inside _ _ inner _ hinner => exact ⟨inner, (hentries inner).2 hinner, rfl⟩

/-- The paths inside a block are exactly those that lead to an end there. -/
theorem Block.mem_paths_iff (block : Block) (path : Path) :
    path ∈ block.paths ↔ block.Leads path := by
  obtain ⟨entries⟩ := block
  exact mem_paths_iff_of_forall (fun entry _ piece => entry.2.mem_paths_iff piece) path

/-! ## What the paths ask for -/

/-- The scope inside the scope after some pieces. -/
def Scope.through (scope : Scope) (pieces : List String) : Scope where
  media? := (pieces.filter fun piece => Key.kind piece = .media).getLast?.or scope.media?
  selectors := scope.selectors ++
    (pieces.filter fun piece => Key.kind piece = .selector).map Key.selectorPiece

namespace Scope

variable {scope : Scope} {piece : String} {rest : List String}

@[simp] theorem through_nil : scope.through [] = scope := by
  simp [through]

/-- A media piece sets the media query, which counts unless a later piece sets it again. -/
theorem through_cons_of_media (hkind : Key.kind piece = .media) :
    scope.through (piece :: rest) = (scope.setMedia piece).through rest := by
  simp [through, setMedia, hkind, List.getLast?_cons]

/-- A selector piece adds to the selectors, before all later pieces. -/
theorem through_cons_of_selector (hkind : Key.kind piece = .selector) :
    scope.through (piece :: rest) =
      (scope.addSelector (Key.selectorPiece piece)).through rest := by
  simp [through, addSelector, hkind]

end Scope

/-- What a path asks for in a scope. -/
def Path.requestIn (scope : Scope) (path : Path) : Request :=
  match path.target with
  | .leaf leaf => .atom ((scope.through path.passed).atom path.last leaf)
  | .animation stages => .keyframes (stages.keyframes path.last)

namespace Path

variable {scope : Scope} {path : Path} {piece : String}

/-- What a path asks for in no scope is what it asks for by itself. -/
theorem requestIn_root : path.requestIn Scope.root = path.request := by
  simp [requestIn, request, around, Scope.through, Scope.root, Scope.atom]

/-- A media piece in front of a path sets the media query of its scope. -/
theorem requestIn_within_of_media (hkind : Key.kind piece = .media) :
    (path.within piece).requestIn scope = path.requestIn (scope.setMedia piece) := by
  simp only [requestIn, within, Scope.through_cons_of_media hkind]

/-- A selector piece in front of a path adds to the selectors of its scope. -/
theorem requestIn_within_of_selector (hkind : Key.kind piece = .selector) :
    (path.within piece).requestIn scope =
      path.requestIn (scope.addSelector (Key.selectorPiece piece)) := by
  simp only [requestIn, within, Scope.through_cons_of_selector hkind]

end Path

/-- The paths inside a block ask for what the block asks for if this is so inside its values. -/
theorem Block.requests_eq_map_of_forall {entries : List (String × Value)}
    (h : ∀ entry ∈ entries, ∀ scope piece,
      entry.2.requests scope piece = (entry.2.paths piece).map (Path.requestIn scope))
    (scope : Scope) :
    Block.requests scope ⟨entries⟩ = (Block.paths ⟨entries⟩).map (Path.requestIn scope) := by
  -- a request does not show where in the block it comes from
  have hunder (index : Nat) (path : Path) :
      (path.under index).requestIn scope = path.requestIn scope := rfl
  rw [requests, paths, pathsOfEntries_eq_branch, Path.map_branch hunder]
  induction entries with
  | nil => rfl
  | cons entry rest ih =>
      obtain ⟨key, value⟩ := entry
      have hvalue := h (key, value) (by simp) scope
      rw [requestsOfEntries, List.flatMap_cons, Path.map_branch hunder,
        ih fun other hother => h other (by simp [hother])]
      simp only [hvalue]

/-- In every scope, the paths inside a value ask for what the value asks for. -/
theorem Value.requests_eq_map (scope : Scope) (piece : String) (value : Value) :
    value.requests scope piece = (value.paths piece).map (Path.requestIn scope) := by
  -- a block inside sees the scope with its own piece, so the scope is not fixed in the induction
  induction value using Value.induction generalizing scope piece with
  | null => rfl
  | bool => rfl
  | text => simp [requests, paths, Path.requestIn]
  | number => simp [requests, paths, Path.requestIn]
  | list items =>
      rw [requests, paths, Path.map_branch fun _ _ => rfl, List.filterMap_eq_flatMap_toList]
      congr 1
      funext item
      cases item.scalar? <;> simp [Path.requestIn]
  | block entries ih =>
      have hentries := Block.requests_eq_map_of_forall ih
      cases hkind : Key.kind piece with
      | keyframes => simp [requests, paths, hkind, Path.requestIn]
      | media =>
          simp only [requests, paths, hkind, hentries, List.map_map]
          congr 1
          funext path
          exact (Path.requestIn_within_of_media hkind).symm
      | selector =>
          simp only [requests, paths, hkind, hentries, List.map_map]
          congr 1
          funext path
          exact (Path.requestIn_within_of_selector hkind).symm

/-- A block asks for what the paths inside it ask for. -/
theorem Block.requests_root_eq_map (block : Block) :
    block.requests Scope.root = block.paths.map Path.request := by
  obtain ⟨entries⟩ := block
  rw [requests_eq_map_of_forall fun entry _ scope piece => entry.2.requests_eq_map scope piece]
  congr 1
  funext path
  exact Path.requestIn_root

/-- All paths inside a block can be listed in the order of their positions, none twice, and the
walk through the block asks for what these paths ask for, one after the other. -/
theorem requests_eq_map_paths (block : Block) :
    ∃ paths : List Path,
      paths.Pairwise (fun path later => path.position < later.position) ∧
      (∀ path, path ∈ paths ↔ block.Leads path) ∧
      block.requests Scope.root = paths.map Path.request ∧
      ∀ (σ : Type) [LiveSheet σ],
        (Session.compile block : StateM (Session σ) (List String)) =
          Session.answerAll (paths.map Path.request) := by
  refine ⟨block.paths, block.ordered_paths, block.mem_paths_iff, block.requests_root_eq_map, ?_⟩
  intro σ _
  rw [← block.requests_root_eq_map]
  exact Session.compile_eq_answerAll block

example : (Block.paths ⟨[("top, left", .text "0"),
    ("&:hover", .block ⟨[("color", .list [.null, .text "red"])]⟩)]⟩).map Path.position =
    [[0, 0], [0, 1], [1, 0, 0, 0, 1]] := by decide +kernel

end AtomicRules

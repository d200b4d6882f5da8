import AtomicRules.Proofs.Calls
import AtomicRules.Sheet.Bounded

/-!
# Declarations in stages and in blocks

The declarations of a block are written in two ways. In a stage of an animation they are written
straight away, and anywhere else each one is asked for as an atom of its own. For a block of filled
leaves under keys without commas both come to the same (`declarations_eq_of_plain`). The rule of an
animation consists of its stages, and nothing around the animation shows in it.
-/

namespace AtomicRules

/-- The declaration of an atom, without its context. -/
def Atom.declaration (atom : Atom) : String :=
  Rule.declaration atom.property atom.value

namespace Block

/-- The block holds numbers and filled texts only, under keys without commas. -/
def IsPlain (block : Block) : Prop :=
  ∀ entry ∈ block.entries, ',' ∉ entry.1.toList ∧
    entry.2.scalar?.isSome ∧ entry.2.scalar? ≠ some (.text "")

instance : DecidablePred IsPlain := fun block =>
  inferInstanceAs (Decidable (∀ entry ∈ block.entries, ',' ∉ entry.1.toList ∧
    entry.2.scalar?.isSome ∧ entry.2.scalar? ≠ some (.text "")))

/-- The atoms of the block's own leaves in a scope, where no key is split at commas. -/
def leafAtoms (scope : Scope) (block : Block) : List Atom :=
  block.entries.filterMap fun (key, value) =>
    value.scalar?.map (scope.atom (Key.normalize key))

/-- The entries that hold blocks, with these blocks. -/
def bodies (stages : Block) : List (String × Block) :=
  stages.entries.filterMap fun (stage, value) =>
    match value with
    | .block body => some (stage, body)
    | _ => none

/-- A stage has the declarations of the atoms of its leaves, in whatever scope they are. -/
theorem declarations_eq_join_leafAtoms (block : Block) (scope : Scope) :
    block.declarations = String.join ((block.leafAtoms scope).map Atom.declaration) := by
  rw [declarations, leafAtoms, List.map_filterMap]
  congr 2
  funext ⟨key, value⟩
  rw [Option.map_map]
  rfl

end Block

namespace Value

/-- A leaf asks for its own atom. -/
theorem requests_of_scalar? {value : Value} {leaf : Scalar} (h : value.scalar? = some leaf)
    (scope : Scope) (piece : String) :
    value.requests scope piece = [.atom (scope.atom piece leaf)] := by
  cases value with
  | text => cases h; rfl
  | number => cases h; rfl
  | null | bool | list | block => contradiction

/-- A leaf that is not the empty text is not blank. -/
theorem isBlank_of_isSome_scalar? {value : Value} (h : value.scalar?.isSome)
    (hfilled : value.scalar? ≠ some (.text "")) : value.isBlank = false := by
  cases value with
  | text value =>
      have hne : value ≠ "" := fun hempty =>
        hfilled (congrArg (fun t => some (Scalar.text t)) hempty)
      simpa [isBlank] using hne
  | number => rfl
  | null | bool | list | block => contradiction

end Value

namespace Block

/-- A plain block asks for the atoms of its leaves, and for nothing else. -/
theorem requests_of_isPlain {block : Block} (h : block.IsPlain) (scope : Scope) :
    block.requests scope = (block.leafAtoms scope).map Request.atom := by
  obtain ⟨entries⟩ := block
  show requestsOfEntries scope entries = _
  induction entries with
  | nil => rfl
  | cons entry rest ih =>
      obtain ⟨key, value⟩ := entry
      obtain ⟨hcomma, hsome, hfilled⟩ := h (key, value) (by simp)
      obtain ⟨leaf, hleaf⟩ := Option.isSome_iff_exists.1 hsome
      have hrest := ih fun other hother => h other (by simp [hother])
      have hhead : leafAtoms scope ⟨(key, value) :: rest⟩ =
          scope.atom (Key.normalize key) leaf :: leafAtoms scope ⟨rest⟩ := by
        simp [leafAtoms, hleaf]
      rw [requestsOfEntries, Value.isBlank_of_isSome_scalar? hsome hfilled, hrest, hhead]
      simp [Key.pieces_eq_singleton hcomma, Value.requests_of_scalar? hleaf]

/-- The bodies are those of the entries that hold blocks, in their order. -/
theorem map_bodies (stages : Block) :
    (stages.bodies.map fun (stage, body) => (stage, Value.block body)) =
      stages.entries.filter fun entry => entry.2.kind = .object := by
  obtain ⟨entries⟩ := stages
  induction entries with
  | nil => rfl
  | cons entry rest ih =>
      obtain ⟨stage, value⟩ := entry
      cases value with
      | block body => exact congrArg ((stage, Value.block body) :: ·) ih
      | null | bool | text | number | list => exact ih

/-- The rule of an animation is written from its bodies. -/
theorem keyframes_eq_join_bodies (label : String) (stages : Block) :
    stages.keyframes label = Rule.labelled label (String.join
      (stages.bodies.map fun (stage, body) => Rule.labelled stage body.declarations)) := by
  rw [keyframes, bodies, List.map_filterMap]
  congr 3
  funext ⟨stage, value⟩
  cases value <;> rfl

end Block

namespace Session

variable {σ : Type} [LiveSheet σ]

/-- An animation has no class, its rule is known afterwards, and it was added if it was new. -/
theorem compileValue_keyframes {piece : String} (hkind : Key.kind piece = .keyframes)
    (scope : Scope) (stages : Block) (session : Session σ) :
    let later := (compileValue scope piece (.block stages) session).2
    (compileValue scope piece (.block stages) session).1 = [] ∧
      later.keyframes.get? (stages.keyframes piece) = some () ∧
      later.rules = session.rules ++
        if session.keyframes.contains (stages.keyframes piece) then []
        else [stages.keyframes piece] := by
  intro later
  have hwalk : compileValue scope piece (.block stages) session =
      ([], (answer (.keyframes (stages.keyframes piece)) session).2) := by
    rw [compileValue_eq_answerAll, Value.requests, hkind]
    rfl
  have hlater : later = (answer (.keyframes (stages.keyframes piece)) session).2 :=
    congrArg Prod.snd hwalk
  rw [hlater, Memo.contains]
  cases h : session.keyframes.get? (stages.keyframes piece) with
  | some =>
      rw [answer_keyframes_of_some h]
      exact ⟨congrArg Prod.fst hwalk, h, by simp⟩
  | none =>
      rw [answer_keyframes_of_none h]
      refine ⟨congrArg Prod.fst hwalk, ?_, Ledger.rules_record _ _⟩
      exact (Memo.get?_insert _ _ _ _).trans (if_pos rfl)

/-- A block of numbers and filled texts under keys without commas has one text of declarations. As a
stage it has this text, and compiled as a block, in whatever scope, it asks for atoms whose
declarations follow one another in the same text. An animation is recorded as its key around its
stages, each of them a key that stands as it is around the declarations of its block. What holds no
block is no stage, and the scope of the animation does not matter. -/
theorem declarations_eq_of_plain :
    (∀ (block : Block), block.IsPlain → ∀ scope, ∃ atoms : List Atom,
      block.requests scope = atoms.map Request.atom ∧
        (compileBlock scope block : StateM (Session σ) (List String)) =
          answerAll (atoms.map Request.atom) ∧
        block.declarations = String.join (atoms.map Atom.declaration)) ∧
    ∀ (piece : String), Key.kind piece = .keyframes → ∀ stages : Block,
      ∃ bodies : List (String × Block),
        (bodies.map fun (stage, body) => (stage, Value.block body)) =
            (stages.entries.filter fun entry => entry.2.kind = .object) ∧
          let text := Rule.labelled piece (String.join
            (bodies.map fun (stage, body) => Rule.labelled stage body.declarations))
          ∀ (scope : Scope) (session : Session σ),
            let later := (compileValue scope piece (.block stages) session).2
            (compileValue scope piece (.block stages) session).1 = [] ∧
              later.keyframes.get? text = some () ∧
              later.rules =
                session.rules ++ if session.keyframes.contains text then [] else [text] := by
  constructor
  · intro block hplain scope
    have hrequests := Block.requests_of_isPlain hplain scope
    refine ⟨block.leafAtoms scope, hrequests, ?_, block.declarations_eq_join_leafAtoms scope⟩
    rw [compileBlock_eq_answerAll, hrequests]
  · intro piece hkind stages
    refine ⟨stages.bodies, stages.map_bodies, ?_⟩
    intro text scope session
    have htext : stages.keyframes piece = text := stages.keyframes_eq_join_bodies piece
    rw [← htext]
    exact compileValue_keyframes hkind scope stages session

/-- Two keys with one spelling have two declarations in the stage and in the block alike. The label
of the stage keeps its capitals, and what stands beside it without a block is left out. -/
theorem declarations_eq_of_plain_from :
    let body := Block.ofList [("borderWidth", toValue (2 : Int)), (" border-width", toValue "thin"),
      ("msFlex", toValue (Binary64.ofBits 0x3ff8000000000000))]
    let stages := Block.ofList [("FROM", toValue body), ("color", toValue "red")]
    let scope : Scope := ⟨some "@media print", [":hover"]⟩
    let fresh : Session BoundedSheet := start {}
    body.IsPlain ∧ Key.kind "@keyframes spin" = .keyframes ∧
      (∃ atoms : List Atom, body.requests scope = atoms.map Request.atom ∧
        body.declarations = String.join (atoms.map Atom.declaration)) ∧
      body.declarations = "border-width:2px;border-width:thin;-ms-flex:1.5;" ∧
      ∀ other, (compileValue other "@keyframes spin" (.block stages) fresh).2.rules =
        ["@keyframes spin\x7bFROM\x7b" ++
          "border-width:2px;border-width:thin;-ms-flex:1.5;\x7d\x7d"] := by
  intro body stages scope fresh
  have hplain : body.IsPlain := by decide +kernel
  have hkind : Key.kind "@keyframes spin" = .keyframes := by decide
  obtain ⟨hblocks, hanimations⟩ := declarations_eq_of_plain (σ := BoundedSheet)
  obtain ⟨atoms, hrequests, -, hdeclarations⟩ := hblocks body hplain scope
  obtain ⟨bodies, -, hrecorded⟩ := hanimations "@keyframes spin" hkind stages
  refine ⟨hplain, hkind, ⟨atoms, hrequests, hdeclarations⟩, by decide +kernel, ?_⟩
  intro other
  obtain ⟨-, -, hroot⟩ := hrecorded Scope.root fresh
  obtain ⟨-, -, hother⟩ := hrecorded other fresh
  rw [hother, ← hroot]
  decide +kernel

end Session

end AtomicRules

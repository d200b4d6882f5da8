import AtomicRules.Ledger
import AtomicRules.Memo
import AtomicRules.Request
import AtomicRules.Settings

/-!
# Sessions

A session turns style blocks into class names and keeps the rules for them. `compile` walks
through a block and answers each request where it comes up. A new atom gets the next class and its
rule, a new animation gets its rule, and both count together. What was asked for before is answered
from memory, so that equal blocks get equal classes and add no rules. The four equations of
`answer` say so one by one, and `rules_answer_prefix` that no rule is ever lost.
-/

namespace AtomicRules

/-- A session: its settings, the class of every atom, the animations, and the ledger of rules. -/
structure Session (σ : Type) where
  settings : Settings := {}
  classes : Memo Atom String := ∅
  keyframes : Memo String Unit := ∅
  ledger : Ledger σ := {}

namespace Session

variable {σ η : Type}

/-! ## Starting -/

/-- A session that keeps its rules in memory only. -/
def start (settings : Settings) : Session σ where
  settings := settings
  ledger := { debug := settings.debug }

/-- The record of a sheet's creation. -/
def creation (settings : Settings) (nonce? : Option String) : Journal.Record where
  severity := .debug
  target := "atomcss::engine"
  message := "created stylesheet for prefix " ++ Text.quoted settings.stem ++
    " (nonce: " ++ toString nonce?.isSome ++ ")"

/-- A session whose rules go into a live sheet of the host as well. The sheet has the nonce of the
settings, or else the one that was detected. With `memoryOnly` the host is left alone. -/
def attach [SheetHost η σ] (settings : Settings) (detected? : Option String) :
    StateM η (Session σ) := do
  if settings.memoryOnly then return start settings
  let nonce? := settings.nonce?.or detected?
  let sheet ← SheetHost.createSheet nonce?
  return {
    settings := settings
    ledger := {
      sheet? := some sheet
      debug := settings.debug
      journal := if settings.debug then [creation settings nonce?] else [] } }

/-! ## Answering requests -/

variable [LiveSheet σ]

/-- The report of a class and the rule that it was minted for. -/
def classReport (name rule : String) : Journal.Record :=
  ⟨.trace, "atomcss::compiler", "minted " ++ name ++ " for " ++ rule⟩

/-- The report of an animation. -/
def keyframesReport (rule : String) : Journal.Record :=
  ⟨.trace, "atomcss::compiler", "recorded " ++ rule⟩

/-- Makes the next class, with the rule of an atom. Every mint is reported, with any settings. -/
def mintClass (stem : String) (atom : Atom) : StateM (Ledger σ) String := do
  let name := ClassName.make stem (← get).size
  modify (·.report (classReport name (atom.rule name)))
  modify (·.record (atom.rule name))
  return name

/-- Makes the rule of an animation. -/
def mintKeyframes (rule : String) : StateM (Ledger σ) Unit := do
  modify (·.report (keyframesReport rule))
  modify (·.record rule)

/-- Answers a request. An atom is answered by its class, an animation has no class. -/
def answer : Request → StateM (Session σ) (Option String)
  | .atom atom, session =>
      let ((name, classes), ledger) :=
        (session.classes.getOrMint atom (mintClass session.settings.stem atom)).run session.ledger
      (some name, { session with classes, ledger })
  | .keyframes rule, session =>
      let (((), keyframes), ledger) :=
        (session.keyframes.getOrMint rule (mintKeyframes rule)).run session.ledger
      (none, { session with keyframes, ledger })

/-- Answers requests in order. The result is the classes of the atoms. -/
def answerAll : List Request → StateM (Session σ) (List String)
  | [] => return []
  | request :: rest => do
      let name? ← answer request
      let names ← answerAll rest
      return name?.toList ++ names

/-! ## Walking through a block -/

/-- The class of a leaf. -/
def compileLeaf (scope : Scope) (piece : String) (leaf : Scalar) :
    StateM (Session σ) (List String) := do
  let name? ← answer (.atom (scope.atom piece leaf))
  return name?.toList

mutual

/-- The classes of a value's leaves under a piece of its key. A list has its own leaves only. -/
def compileValue (scope : Scope) (piece : String) : Value → StateM (Session σ) (List String)
  | .null => return []
  | .bool _ => return []
  | .text value => compileLeaf scope piece (.text value)
  | .number value => compileLeaf scope piece (.number value)
  | .list items => do
      let names ← (items.filterMap Value.scalar?).mapM (compileLeaf scope piece)
      return names.flatten
  | .block block =>
      match Key.kind piece with
      | .keyframes => do
          let name? ← answer (.keyframes (block.keyframes piece))
          return name?.toList
      | .media => compileBlock (scope.setMedia piece) block
      | .selector => compileBlock (scope.addSelector (Key.selectorPiece piece)) block

/-- The classes of a block's leaves in a scope. -/
def compileBlock (scope : Scope) : Block → StateM (Session σ) (List String)
  | ⟨entries⟩ => compileEntries scope entries

/-- The classes of the leaves of entries. A value that is not blank counts under every piece of its
key. -/
def compileEntries (scope : Scope) : List (String × Value) → StateM (Session σ) (List String)
  | [] => return []
  | (key, value) :: rest => do
      let pieces := if value.isBlank then [] else Key.pieces key
      let names ← pieces.mapM fun piece => compileValue scope piece value
      let others ← compileEntries scope rest
      return names.flatten ++ others

end

/-- The classes of a block's leaves, in order. -/
def compile (block : Block) : StateM (Session σ) (List String) :=
  compileBlock Scope.root block

/-- The classes of a block's leaves as the text of a class attribute. -/
def classText (block : Block) : StateM (Session σ) String := do
  let names ← compile block
  return Text.trimString (String.intercalate " " names)

/-! ## Known and new requests -/

/-- A known atom is answered by its class, and nothing changes. -/
theorem answer_atom_of_some {session : Session σ} {atom : Atom} {name : String}
    (h : session.classes.get? atom = some name) :
    answer (.atom atom) session = (some name, session) := by
  simp only [answer, Memo.getOrMint_of_some h]
  rfl

/-- A new atom is answered by the class whose number is that of its rule. -/
theorem answer_atom_of_none {session : Session σ} {atom : Atom}
    (h : session.classes.get? atom = none) :
    answer (.atom atom) session =
      let name := ClassName.make session.settings.stem session.ledger.size
      (some name, { session with
        classes := session.classes.insert atom name
        ledger := (session.ledger.report (classReport name (atom.rule name))).record
          (atom.rule name) }) := by
  simp only [answer, Memo.getOrMint_of_none h]
  rfl

/-- A known animation changes nothing. -/
theorem answer_keyframes_of_some {session : Session σ} {rule : String}
    (h : session.keyframes.get? rule = some ()) :
    answer (.keyframes rule) session = (none, session) := by
  simp only [answer, Memo.getOrMint_of_some h]
  rfl

/-- A new animation adds its rule. -/
theorem answer_keyframes_of_none {session : Session σ} {rule : String}
    (h : session.keyframes.get? rule = none) :
    answer (.keyframes rule) session =
      (none, { session with
        keyframes := session.keyframes.insert rule ()
        ledger := (session.ledger.report (keyframesReport rule)).record rule }) := by
  simp only [answer, Memo.getOrMint_of_none h]
  rfl

/-- An answer leaves the settings as they are. -/
theorem settings_answer (request : Request) (session : Session σ) :
    (answer request session).2.settings = session.settings := by
  cases request <;> rfl

/-- An answer adds a rule at the end or none. -/
theorem rules_answer_prefix (request : Request) (session : Session σ) :
    session.ledger.rules <+: (answer request session).2.ledger.rules := by
  cases request with
  | atom atom =>
      cases h : session.classes.get? atom with
      | some name => simp [answer_atom_of_some h]
      | none => simp [answer_atom_of_none h]
  | keyframes rule =>
      cases h : session.keyframes.get? rule with
      | some => simp [answer_keyframes_of_some h]
      | none => simp [answer_keyframes_of_none h]

/-! ## Reading the rules -/

omit [LiveSheet σ]

/-- The rules in the order in which they were made. -/
def rules (session : Session σ) : List String :=
  session.ledger.rules

/-- All rules as a style sheet, a rule a line, in the order of their code points. That order makes
the text reproducible and says nothing of the cascade. -/
def css (session : Session σ) : String :=
  String.intercalate "\n" (session.rules.mergeSort fun a b => decide (a ≤ b))

/-- Rules go into a live sheet as well. -/
def hasSheet (session : Session σ) : Bool :=
  session.ledger.sheet?.isSome

end Session

end AtomicRules

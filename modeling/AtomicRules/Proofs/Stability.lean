import AtomicRules.Proofs.Calls
import AtomicRules.Proofs.EqualBlocks
import AtomicRules.Sheet.Bounded
import AtomicRules.Sheet.Transcript

/-!
# Compiling a block again

Whatever a session does after it has compiled a block, it answers the block and every block equal
to it as it did the first time, and nothing in it changes (`compile_again`). No rule is ever taken
back or moved.
-/

namespace AtomicRules.Session

variable {σ : Type}

/-- The session with a transcript of all offers made to its sheet from now on. -/
def transcribed (session : Session σ) : Session (Transcript σ) where
  settings := session.settings
  classes := session.classes
  keyframes := session.keyframes
  ledger := {
    rules := session.ledger.rules
    sheet? := session.ledger.sheet?.map fun sheet => ⟨sheet, []⟩
    debug := session.ledger.debug
    journal := session.ledger.journal }

/-- The offers in the transcript of a session. -/
def offers (session : Session (Transcript σ)) : List Offer :=
  session.ledger.sheet?.toList.flatMap (·.offers)

/-- A transcript begins without offers. -/
theorem offers_transcribed (session : Session σ) : session.transcribed.offers = [] := by
  rw [offers, transcribed]
  cases session.ledger.sheet? <;> rfl

/-- What a session remembers has nothing to do with a transcript. -/
theorem known?_transcribed (session : Session σ) (request : Request) :
    session.transcribed.known? request = session.known? request := by
  cases request <;> rfl

variable [LiveSheet σ]

/-- After a block was compiled, a session knows what the block asks for. -/
theorem known?_after_compile {block : Block} {request : Request}
    (h : request ∈ block.requests Scope.root) (calls : List Call) (session : Session σ) :
    ∃ name?, ((compile block session).2.after calls).known? request = some name? := by
  rw [compile_eq_answerAll]
  obtain ⟨name?, hknown⟩ := known?_answerAll h session
  exact ⟨name?, extends_after calls _ request name? hknown⟩

/-- A block whose requests are all known changes nothing. -/
theorem compile_of_known {block : Block} {session : Session σ}
    (h : ∀ request ∈ block.requests Scope.root, ∃ name?, session.known? request = some name?) :
    compile block session =
      ((block.requests Scope.root).filterMap session.recalled, session) := by
  rw [compile_eq_answerAll]
  exact answerAll_of_known h

/-- A block that was compiled is compiled again, in itself or in a block equal to it, after any
calls in between. The rules from before stand where they stood, the classes are those of the first
time, and the session stays as it is: no memo, no rule, no record in the journal and no sheet
changes. Nothing is offered to the sheet, and whatever else the sheet would do, nothing comes out
differently. -/
theorem compile_again (session : Session σ) {block again : Block}
    (h : again = block ∨ (again == block) = true) (calls : List Call) :
    let names := (compile block session).1
    let later := (compile block session).2.after calls
    session.rules <+: (session.after calls).rules ∧
      (compile block session).2.rules <+: later.rules ∧
      compile again later = (names, later) ∧
      classText again later = ((classText block session).1, later) ∧
      (compile again later.transcribed).2.offers = [] ∧
      ∀ _otherSheet : LiveSheet σ, compile again later = (names, later) := by
  intro names later
  have hrequests : again.requests Scope.root = block.requests Scope.root := by
    rcases h with rfl | hequal
    · rfl
    · exact requests_of_equalBlocks hequal Scope.root
  have hknown : ∀ request ∈ again.requests Scope.root,
      ∃ name?, later.known? request = some name? := by
    rw [hrequests]
    intro request hrequest
    exact known?_after_compile hrequest calls session
  have hnames : names = (again.requests Scope.root).filterMap later.recalled := by
    have hextends : (answerAll (block.requests Scope.root) session).2.Extends later := by
      rw [← compile_eq_answerAll]
      exact extends_after calls _
    rw [hrequests, ← answerAll_eq_recalled hextends, ← compile_eq_answerAll]
  -- memory alone gives the answers, so they are the same for every sheet
  have hagain (_otherSheet : LiveSheet σ) : compile again later = (names, later) := by
    rw [compile_of_known hknown, hnames]
  refine ⟨rules_prefix_after calls session, rules_prefix_after calls _, hagain _, ?_, ?_, hagain⟩
  · show (Text.trimString (String.intercalate " " (compile again later).1),
      (compile again later).2) = _
    rw [hagain]
    rfl
  · have htranscribed : ∀ request ∈ again.requests Scope.root,
        ∃ name?, later.transcribed.known? request = some name? := by
      intro request hrequest
      rw [known?_transcribed]
      exact hknown request hrequest
    rw [compile_of_known htranscribed]
    exact offers_transcribed later

/-- Minus zero in place of zero makes an equal block, in a leaf, in a list and in a stage. After
another block it is answered as the first one was, and the sheet with room for one rule is not
asked again. -/
theorem compile_again_zero :
    let session : Session BoundedSheet := (attach { debug := true } none (BoundedHost.mk 1)).1
    let block (zero : Binary64) : Block :=
      (((Block.empty.insert "top" zero).insert "left" [toValue "1em", toValue zero]).insert
        "@keyframes drop" (Block.ofList [("to", Block.ofList [("top", zero)])]))
    let zero := Binary64.ofBits 0
    let minusZero := Binary64.ofBits 0x8000000000000000
    let calls := [.compile (Block.ofList [("color", "red")]), .css]
    let later := (compile (block zero) session).2.after calls
    (block minusZero = block zero ∨ (block minusZero == block zero) = true) ∧
      later.rules = [".t0\x7btop:0;\x7d", ".t1\x7bleft:1em;\x7d", ".t2\x7bleft:0;\x7d",
        "@keyframes drop\x7bto\x7btop:0;\x7d\x7d", ".t4\x7bcolor:red;\x7d"] ∧
      compile (block minusZero) later = (["t0", "t1", "t2"], later) ∧
      (compile (block minusZero) later.transcribed).2.offers = [] := by
  intro session block zero minusZero calls later
  have hequal : block minusZero = block zero ∨ (block minusZero == block zero) = true :=
    .inr (by decide +kernel)
  obtain ⟨-, -, hagain, -, hoffers, -⟩ := compile_again session hequal calls
  have hclasses : (compile (block zero) session).1 = ["t0", "t1", "t2"] := by decide +kernel
  refine ⟨hequal, by decide +kernel, ?_, hoffers⟩
  rw [← hclasses]
  exact hagain

end AtomicRules.Session

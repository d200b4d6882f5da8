import AtomicRules.Proofs.Calls
import AtomicRules.Sheet.Bounded

/-!
# Sessions with different sheets

Two sessions agree when they have the same stem, the same memory and the same rules. Their sheets,
what these take or refuse and how they count, and the journals have no part in it, and one of the
sessions may have no sheet at all. An answer never tells sessions that agree apart and leaves them
in agreement (`Agree.answer`). So all that is ever seen of a session depends on its stem and on the
calls alone (`observed_eq_of_fresh`).
-/

namespace AtomicRules

/-- What is seen of a session after a call: the reply, the memory and the rules. -/
structure Observation where
  reply : Reply
  classes : Memo Atom String
  keyframes : Memo String Unit
  rules : List String

namespace Session

variable {σ τ : Type}

/-- The sessions have the same stem, the same memory and the same rules. -/
structure Agree (first : Session σ) (second : Session τ) : Prop where
  stem : first.settings.stem = second.settings.stem
  classes : first.classes = second.classes
  keyframes : first.keyframes = second.keyframes
  rules : first.rules = second.rules

/-- Fresh sessions with one stem agree. -/
theorem Fresh.agree {settings other : Settings} {first : Session σ} {second : Session τ}
    (h : Fresh settings first) (hother : Fresh other second)
    (hstem : settings.stem = other.stem) : first.Agree second := by
  obtain ⟨ledger, hrules, rfl⟩ := h.exists_ledger
  obtain ⟨otherLedger, hotherRules, rfl⟩ := hother.exists_ledger
  exact ⟨hstem, rfl, rfl, hrules.trans hotherRules.symm⟩

namespace Agree

variable {first : Session σ} {second : Session τ}

/-- Sessions that agree know the same requests, with the same answers. -/
theorem known? (h : first.Agree second) (request : Request) :
    first.known? request = second.known? request := by
  cases request with
  | atom atom => rw [known?_atom, known?_atom, h.classes]
  | keyframes rule => rw [known?_keyframes, known?_keyframes, h.keyframes]

/-- The next rule has the same index in sessions that agree. -/
theorem ledger_size (h : first.Agree second) : first.ledger.size = second.ledger.size :=
  congrArg List.length h.rules

/-- The style sheets of sessions that agree are the same text. -/
theorem css (h : first.Agree second) : first.css = second.css := by
  rw [Session.css, Session.css, h.rules]

variable [LiveSheet σ] [LiveSheet τ]

/-- Sessions that agree learn the same from a request, whatever their sheets do with the rule. -/
theorem learn (h : first.Agree second) (request : Request) :
    (first.learn request).Agree (second.learn request) := by
  have hrules : (first.learn request).rules = (second.learn request).rules := by
    rw [Session.rules, Session.rules, rules_learn, rules_learn, h.stem, h.ledger_size]
    exact congrArg (· ++ _) h.rules
  cases request with
  | atom atom =>
      refine ⟨h.stem, ?_, h.keyframes, hrules⟩
      show first.classes.insert _ _ = second.classes.insert _ _
      rw [h.classes, h.stem, h.ledger_size]
  | keyframes rule =>
      refine ⟨h.stem, h.classes, ?_, hrules⟩
      show first.keyframes.insert _ _ = second.keyframes.insert _ _
      rw [h.keyframes]

/-- Sessions that agree give the same answer and still agree. -/
theorem answer (h : first.Agree second) (request : Request) :
    (Session.answer request first).1 = (Session.answer request second).1 ∧
      (Session.answer request first).2.Agree (Session.answer request second).2 := by
  have hsame := h.known? request
  cases hknown : first.known? request with
  | some name? =>
      rw [answer_of_known hknown, answer_of_known (hsame.symm.trans hknown)]
      exact ⟨rfl, h⟩
  | none =>
      rw [answer_of_new hknown, answer_of_new (hsame.symm.trans hknown), h.stem, h.ledger_size]
      exact ⟨rfl, h.learn request⟩

/-- Sessions that agree give the same answers to a list of requests and still agree. -/
theorem answerAll (h : first.Agree second) (requests : List Request) :
    (Session.answerAll requests first).1 = (Session.answerAll requests second).1 ∧
      (Session.answerAll requests first).2.Agree (Session.answerAll requests second).2 := by
  induction requests generalizing first second with
  | nil => exact ⟨rfl, h⟩
  | cons request rest ih =>
      obtain ⟨hname, hnext⟩ := h.answer request
      obtain ⟨hnames, hlast⟩ := ih hnext
      rw [answerAll_cons, answerAll_cons, hname, hnames]
      exact ⟨rfl, hlast⟩

/-- Sessions that agree give a block the same classes and still agree. -/
theorem compile (h : first.Agree second) (block : Block) :
    (Session.compile block first).1 = (Session.compile block second).1 ∧
      (Session.compile block first).2.Agree (Session.compile block second).2 := by
  rw [compile_eq_answerAll, compile_eq_answerAll]
  exact h.answerAll (block.requests Scope.root)

/-- Sessions that agree give a call the same reply and still agree. -/
theorem call (h : first.Agree second) (next : Call) :
    (Session.call next first).1 = (Session.call next second).1 ∧
      (Session.call next first).2.Agree (Session.call next second).2 := by
  cases next with
  | compile block =>
      obtain ⟨hnames, hnext⟩ := h.compile block
      exact ⟨congrArg Reply.texts hnames, hnext⟩
  | classText block =>
      obtain ⟨hnames, hnext⟩ := h.compile block
      exact ⟨congrArg (fun names => Reply.text (Text.trimString (String.intercalate " " names)))
        hnames, hnext⟩
  | css => exact ⟨congrArg Reply.text h.css, h⟩
  | rules => exact ⟨congrArg Reply.texts h.rules, h⟩

end Agree

/-- What is seen of a session in a run, call by call. -/
def observed [LiveSheet σ] (session : Session σ) : List Call → List Observation
  | [] => []
  | next :: rest =>
      let later := (call next session).2
      ⟨(call next session).1, later.classes, later.keyframes, later.rules⟩ :: later.observed rest

variable [LiveSheet σ] [LiveSheet τ]

/-- The same is seen of sessions that agree. -/
theorem Agree.observed {first : Session σ} {second : Session τ} (h : first.Agree second)
    (calls : List Call) : first.observed calls = second.observed calls := by
  induction calls generalizing first second with
  | nil => rfl
  | cons next rest ih =>
      obtain ⟨hreply, hlater⟩ := h.call next
      simp only [Session.observed, hreply, hlater.classes, hlater.keyframes, hlater.rules,
        ih hlater]

/-- Sessions with one stem cannot be told apart, whatever else is in their settings and whatever
sheets they are attached to, if any. After every call of a run both have given the same reply, and
both have the same classes, the same animations and the same rules. -/
theorem observed_eq_of_fresh {settings other : Settings} {first : Session σ} {second : Session τ}
    (h : Fresh settings first) (hother : Fresh other second)
    (hstem : settings.stem = other.stem) (calls : List Call) :
    first.observed calls = second.observed calls :=
  (h.agree hother hstem).observed calls

/-- A sheet with room for one rule refuses a leaf and an animation, and a journal says so. Nothing
else tells the session from the one that has no sheet. -/
theorem observed_eq_of_fresh_bounded :
    let first : Session BoundedSheet := start { stem := "x", memoryOnly := true }
    let second : Session BoundedSheet :=
      (attach { stem := "x", nonce? := some "n", debug := true } none (BoundedHost.mk 1)).1
    let spin := Block.ofList [("to", Block.ofList [("left", (1 : Int))])]
    let calls := [.compile (Block.ofList [("color", "red"), ("top", "0")]), .css,
      .classText ((Block.empty.insert "@keyframes spin" spin).insert "left" "0"), .rules]
    Fresh { stem := "x", memoryOnly := true } first ∧
      Fresh { stem := "x", nonce? := some "n", debug := true } second ∧
      first.observed calls = second.observed calls ∧
      (second.after calls).rules = [".x0\x7bcolor:red;\x7d", ".x1\x7btop:0;\x7d",
        "@keyframes spin\x7bto\x7bleft:1px;\x7d\x7d", ".x3\x7bleft:0;\x7d"] ∧
      (second.after calls).ledger.sheet? = some ⟨1, [".x0\x7bcolor:red;\x7d"]⟩ ∧
      (second.after calls).ledger.journal.map Journal.Record.severity =
        [.debug, .trace, .debug, .trace, .warn, .trace, .warn, .trace, .warn] := by
  intro first second spin calls
  have hfirst : Fresh { stem := "x", memoryOnly := true } first := .start
  have hsecond : Fresh { stem := "x", nonce? := some "n", debug := true } second :=
    .attach none (BoundedHost.mk 1)
  exact ⟨hfirst, hsecond, observed_eq_of_fresh hfirst hsecond rfl calls, by decide +kernel,
    by decide +kernel, by decide +kernel⟩

end Session

end AtomicRules

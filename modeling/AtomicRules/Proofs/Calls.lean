import AtomicRules.Proofs.Answers
import AtomicRules.Proofs.Walk
import Mathlib.Data.List.Basic

/-!
# Runs of a session

A run starts with a fresh session, with or without a live sheet, and makes any calls in any order.
Whatever the calls are, a run answers one list of requests and does nothing else
(`after_eq_answerAll`), so what an answer preserves, a run preserves (`after_preserves`).
-/

namespace AtomicRules

/-- A call on a session. -/
inductive Call where
  /-- The classes of a block, one by one. -/
  | compile (block : Block)
  /-- The classes of a block as one text. -/
  | classText (block : Block)
  /-- All rules as a style sheet. -/
  | css
  /-- All rules in the order in which they were made. -/
  | rules

/-- The block that a call compiles, if it compiles one. -/
def Call.block? : Call → Option Block
  | .compile block => some block
  | .classText block => some block
  | .css => none
  | .rules => none

/-- What a call asks a session for. -/
def Call.requests (call : Call) : List Request :=
  call.block?.toList.flatMap (·.requests Scope.root)

/-- What a call returns. -/
inductive Reply where
  | texts (texts : List String)
  | text (text : String)
deriving DecidableEq

namespace Session

variable {σ : Type}

/-- The sessions that a program can start with. -/
inductive Fresh (settings : Settings) : Session σ → Prop where
  | start : Fresh settings (Session.start settings)
  | attach {η : Type} [SheetHost η σ] (detected? : Option String) (host : η) :
      Fresh settings (Session.attach settings detected? host).1

/-- A fresh session has its settings and knows nothing, and its ledger is empty. -/
theorem Fresh.exists_ledger {settings : Settings} {session : Session σ}
    (h : Fresh settings session) :
    ∃ ledger : Ledger σ, ledger.rules = [] ∧ session = { settings, ledger } := by
  cases h with
  | start => exact ⟨_, rfl, rfl⟩
  | attach detected? host =>
      unfold Session.attach
      split <;> exact ⟨_, rfl, rfl⟩

/-- A fresh session has traced nothing. -/
theorem Fresh.traces_eq {settings : Settings} {session : Session σ} (h : Fresh settings session) :
    Journal.traces session.ledger.journal = [] := by
  cases h with
  | start => rfl
  | attach detected? host =>
      unfold Session.attach
      split
      · rfl
      · show Journal.traces (if settings.debug then [creation settings _] else []) = []
        split <;> rfl

/-- A fresh session has the settings that it was made with. -/
theorem Fresh.settings_eq {settings : Settings} {session : Session σ}
    (h : Fresh settings session) : session.settings = settings := by
  obtain ⟨_, -, rfl⟩ := h.exists_ledger
  rfl

variable [LiveSheet σ]

/-- Makes a call. -/
def call : Call → StateM (Session σ) Reply
  | .compile block => Reply.texts <$> compile block
  | .classText block => Reply.text <$> classText block
  | .css => return .text (← get).css
  | .rules => return .texts (← get).rules

/-- The session after some calls. -/
def after (session : Session σ) : List Call → Session σ
  | [] => session
  | first :: rest => (call first session).2.after rest

/-- The leaves of the blocks that are compiled in a run, each with the class it gets. -/
def classified (session : Session σ) : List Call → List (Atom × String)
  | [] => []
  | first :: rest =>
      (first.block?.toList.flatMap fun block => block.atoms.zip (compile block session).1) ++
        (call first session).2.classified rest

/-! ## The classes of a block -/

omit [LiveSheet σ] in
/-- The class that a session gave to an atom is the one in its memory. -/
theorem recalled_atom (session : Session σ) (atom : Atom) :
    session.recalled (.atom atom) = session.classes.get? atom := by
  rw [recalled, known?_atom]
  cases session.classes.get? atom <;> rfl

omit [LiveSheet σ] in
/-- No class was given to an animation. -/
theorem recalled_keyframes (session : Session σ) (rule : String) :
    session.recalled (.keyframes rule) = none := by
  rw [recalled, known?_keyframes]
  cases session.keyframes.get? rule <;> rfl

/-- After a block was compiled, each of its atoms has a class. -/
theorem get?_classes_compile {block : Block} {atom : Atom} (h : atom ∈ block.atoms)
    (session : Session σ) :
    ∃ name, (compile block session).2.classes.get? atom = some name := by
  obtain ⟨name?, hname⟩ := known?_answerAll (Block.mem_atoms.1 h) session
  rw [← compile_eq_answerAll, known?_atom] at hname
  obtain ⟨name, hname, -⟩ := Option.map_eq_some_iff.1 hname
  exact ⟨name, hname⟩

/-- The classes of a block's leaves are those that any later session has for their atoms. -/
theorem compile_eq_filterMap {block : Block} {session later : Session σ}
    (h : (compile block session).2.Extends later) :
    (compile block session).1 = block.atoms.filterMap later.classes.get? := by
  rw [compile_eq_answerAll] at h ⊢
  rw [answerAll_eq_recalled h, Block.atoms, List.filterMap_filterMap]
  congr 1
  funext request
  cases request with
  | atom atom => exact recalled_atom later atom
  | keyframes rule => exact recalled_keyframes later rule

/-- Every leaf of a block gets one class, and any later session has it for the leaf's atom. -/
theorem compile_eq_map {block : Block} {session later : Session σ}
    (h : (compile block session).2.Extends later) :
    ∃ name : Atom → String, (compile block session).1 = block.atoms.map name ∧
      ∀ atom ∈ block.atoms, later.classes.get? atom = some (name atom) := by
  have hknown (atom : Atom) (hatom : atom ∈ block.atoms) :
      later.classes.get? atom = some ((later.classes.get? atom).getD "") := by
    obtain ⟨name, hname⟩ := get?_classes_compile hatom session
    rw [h.get?_classes hname, Option.getD_some]
  refine ⟨fun atom => (later.classes.get? atom).getD "", ?_, hknown⟩
  rw [compile_eq_filterMap h, List.filterMap_eq_map_iff_forall_eq_some]
  exact hknown

/-- Every leaf of a block gets one class. -/
theorem length_compile (block : Block) (session : Session σ) :
    (compile block session).1.length = block.atoms.length := by
  obtain ⟨name, hnames, -⟩ := compile_eq_map (Extends.refl (compile block session).2)
  rw [hnames, List.length_map]

/-! ## Runs as answers -/

/-- A call leaves the session that answers to its requests leave. -/
theorem call_eq_answerAll (next : Call) (session : Session σ) :
    (call next session).2 = (answerAll next.requests session).2 := by
  cases next with
  | compile block =>
      show (compile block session).2 = _
      rw [compile_eq_answerAll]
      simp [Call.requests, Call.block?]
  | classText block =>
      show (compile block session).2 = _
      rw [compile_eq_answerAll]
      simp [Call.requests, Call.block?]
  | css => rfl
  | rules => rfl

/-- A call that compiles a block leaves what compiling the block leaves. -/
theorem call_of_block? {next : Call} {block : Block} (h : next.block? = some block)
    (session : Session σ) : (call next session).2 = (compile block session).2 := by
  cases next with
  | compile => cases h; rfl
  | classText => cases h; rfl
  | css => contradiction
  | rules => contradiction

/-- Answering two lists one after the other leaves the session that answering both leaves. -/
theorem answerAll_append_snd (front back : List Request) (session : Session σ) :
    (answerAll (front ++ back) session).2 =
      (answerAll back (answerAll front session).2).2 := by
  rw [answerAll_append]
  rfl

/-- A run answers the requests of its calls in order. -/
theorem after_eq_answerAll (calls : List Call) (session : Session σ) :
    session.after calls = (answerAll (calls.flatMap Call.requests) session).2 := by
  induction calls generalizing session with
  | nil => rfl
  | cons first rest ih =>
      rw [after, ih, call_eq_answerAll, List.flatMap_cons, answerAll_append_snd]

/-- What every answer preserves holds after answers to a list of requests. -/
theorem answerAll_preserves {P : Session σ → Prop}
    (hanswer : ∀ request session, P session → P (answer request session).2)
    (requests : List Request) {session : Session σ} (h : P session) :
    P (answerAll requests session).2 := by
  induction requests generalizing session with
  | nil => exact h
  | cons request rest ih =>
      rw [answerAll_cons]
      exact ih (hanswer request session h)

/-- What every answer preserves holds after a run. -/
theorem after_preserves {P : Session σ → Prop}
    (hanswer : ∀ request session, P session → P (answer request session).2)
    (calls : List Call) {session : Session σ} (h : P session) : P (session.after calls) := by
  rw [after_eq_answerAll]
  exact answerAll_preserves hanswer _ h

/-- Answers leave the settings as they are. -/
theorem settings_answerAll (requests : List Request) (session : Session σ) :
    (answerAll requests session).2.settings = session.settings := by
  apply answerAll_preserves (P := fun later => later.settings = session.settings)
  · intro request later hlater
    rw [settings_answer, hlater]
  · rfl

/-- After a run a session has the settings that it was made with. -/
theorem Fresh.settings_after {settings : Settings} {fresh : Session σ} (h : Fresh settings fresh)
    (calls : List Call) : (fresh.after calls).settings = settings := by
  rw [after_eq_answerAll, settings_answerAll, h.settings_eq]

/-- A run forgets nothing. -/
theorem extends_after (calls : List Call) (session : Session σ) :
    session.Extends (session.after calls) := by
  rw [after_eq_answerAll]
  exact extends_answerAll _ session

/-- A run keeps all rules in place and adds others at the end. -/
theorem rules_prefix_after (calls : List Call) (session : Session σ) :
    session.ledger.rules <+: (session.after calls).ledger.rules := by
  apply after_preserves (P := fun later => session.ledger.rules <+: later.ledger.rules)
  · intro request later hlater
    have hadded := rules_answer_prefix request later
    exact hlater.trans hadded
  · exact List.prefix_refl _

end Session

end AtomicRules

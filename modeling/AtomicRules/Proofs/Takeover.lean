import AtomicRules.Proofs.Calls
import AtomicRules.Shared

/-!
# Taking over a poisoned session

Callers take turns with the shared session, and a turn may end in a panic after it has compiled a
block. `trace_of_fresh` compares the shared session with a plain one that does the same tasks and
never panics. They stay equal turn by turn, so the next caller finds all that the panicking one had
done, once and nothing else.
-/

namespace AtomicRules

/-- What a caller wants of a session. -/
inductive Task where
  /-- The classes of a block, or all rules. -/
  | call (call : Call)
  /-- The beginning of all class names. -/
  | stem
  /-- The settings of the session. -/
  | settings
  /-- Whether rules go into a live sheet as well. -/
  | hasSheet

/-- What a caller gets. -/
inductive Result where
  | reply (reply : Reply)
  | settings (settings : Settings)
  | flag (flag : Bool)
deriving DecidableEq

/-- A caller's turn with the shared session: it does a task, or it compiles a block and panics. -/
inductive Turn where
  | plain (task : Task)
  | panic (block : Block)

namespace Turn

/-- The task of a turn. The one that panics has its block compiled. -/
def task : Turn → Task
  | .plain task => task
  | .panic block => .call (.compile block)

/-- The turn panics. -/
def isPanic : Turn → Bool
  | .plain _ => false
  | .panic _ => true

/-- How the turn ends when this is the result of its task. -/
def outcome (turn : Turn) (result : Result) : Outcome Result :=
  if turn.isPanic then .panicked else .returned result

end Turn

variable {σ : Type} [LiveSheet σ]

namespace Session

/-- Does a task. -/
def perform : Task → StateM (Session σ) Result
  | .call next => .reply <$> call next
  | .stem => return .reply (.text (← get).settings.stem)
  | .settings => return .settings (← get).settings
  | .hasSheet => return .flag (← get).hasSheet

/-- The results of tasks, each with the session that is left. -/
def trace (session : Session σ) : List Task → List (Result × Session σ)
  | [] => []
  | task :: rest => perform task session :: (perform task session).2.trace rest

end Session

namespace Shared

/-- Takes a turn. The text of classes and the style sheet have functions of their own, everything
else is an action on the session inside. -/
def take : Turn → StateM (Shared σ) (Outcome Result)
  | .plain (.call (.classText block)) => Outcome.map (.reply ∘ .text) <$> classText block
  | .plain (.call .css) => Outcome.map (.reply ∘ .text) <$> css
  | .plain task => run (.returned <$> Session.perform task)
  | .panic block => run do
      let _ ← Session.compile block
      return .panicked

/-- How turns end, each with the session that is left inside. -/
def trace (shared : Shared σ) : List Turn → List (Outcome Result × Session σ)
  | [] => []
  | turn :: rest =>
      ((take turn shared).1, (take turn shared).2.session) :: (take turn shared).2.trace rest

/-- The shared session after some turns. -/
def after (shared : Shared σ) : List Turn → Shared σ
  | [] => shared
  | turn :: rest => (take turn shared).2.after rest

/-! ## One turn -/

omit [LiveSheet σ] in
/-- An action that returns runs on the session as it was left and poisons nothing. -/
theorem run_returned {α : Type} (action : StateM (Session σ) α) (shared : Shared σ) :
    run (.returned <$> action) shared =
      (.returned (action shared.session).1,
        { shared with session := (action shared.session).2 }) := by
  unfold run
  rw [recover_acquire]
  show (Outcome.returned (action shared.session).1, _) = _
  simp only [Bool.or_false]

omit [LiveSheet σ] in
/-- An action that panics runs on the session as it was left and leaves what it has done. -/
theorem run_panicked {α β : Type} (action : StateM (Session σ) α) (shared : Shared σ) :
    run (do let _ ← action; return (.panicked : Outcome β)) shared =
      (.panicked, ⟨(action shared.session).2, true⟩) := by
  unfold run
  rw [recover_acquire]
  show (Outcome.panicked, _) = _
  simp only [Bool.or_true]

/-- A turn does its task on the session inside, whether or not an earlier one has panicked. -/
theorem take_eq (turn : Turn) (shared : Shared σ) :
    take turn shared =
      (turn.outcome (Session.perform turn.task shared.session).1,
        ⟨(Session.perform turn.task shared.session).2, shared.poisoned || turn.isPanic⟩) := by
  cases turn with
  | plain task =>
      have hplain : run (.returned <$> Session.perform task) shared =
          (.returned (Session.perform task shared.session).1,
            ⟨(Session.perform task shared.session).2, shared.poisoned || false⟩) := by
        rw [run_returned, Bool.or_false]
      cases task with
      | call next =>
          cases next with
          | compile block => exact hplain
          | classText block =>
              show Prod.map _ id (run (.returned <$> Session.classText block) shared) = _
              rw [run_returned, Turn.isPanic, Bool.or_false]
              rfl
          | css =>
              show Prod.map _ id
                (run (.returned <$> fun session => (session.css, session)) shared) = _
              rw [run_returned, Turn.isPanic, Bool.or_false]
              rfl
          | rules => exact hplain
      | stem => exact hplain
      | settings => exact hplain
      | hasSheet => exact hplain
  | panic block =>
      rw [Turn.isPanic, Bool.or_true]
      exact run_panicked (Session.compile block) shared

/-! ## Many turns -/

/-- Turn by turn, the session inside is the one that does the tasks alone. -/
theorem trace_eq (turns : List Turn) (shared : Shared σ) :
    shared.trace turns =
      List.zipWith (fun turn (result, session) => (turn.outcome result, session)) turns
        (shared.session.trace (turns.map Turn.task)) := by
  induction turns generalizing shared with
  | nil => rfl
  | cons turn rest ih =>
      rw [trace, ih, take_eq]
      rfl

/-- The lock is poisoned once a turn has panicked. -/
theorem poisoned_after (turns : List Turn) (shared : Shared σ) :
    (shared.after turns).poisoned = (shared.poisoned || turns.any Turn.isPanic) := by
  induction turns generalizing shared with
  | nil => exact (Bool.or_false _).symm
  | cons turn rest ih =>
      rw [after, ih, take_eq, List.any_cons, Bool.or_assoc]

/-- Panics neither lose nor repeat any work. The shared session starts fresh, behind a lock that may
be poisoned from an earlier life, and callers take any turns with it. A session alone does the same
tasks, where each turn that panics is the compiling of its block. Then every turn that does not
panic ends with the same result in both, and after every turn, panicking or not, the two sessions
are the same, with their memory and their rules. The lock is poisoned from the first panic on, so
every later turn has to take the session over. -/
theorem trace_of_fresh (poisoned : Bool) (turns : List Turn) :
    let shared : Shared σ := { fresh with poisoned }
    shared.trace turns =
        List.zipWith (fun turn (result, session) => (turn.outcome result, session)) turns
          ((Session.start {} : Session σ).trace (turns.map Turn.task)) ∧
      (shared.after turns).poisoned = (poisoned || turns.any Turn.isPanic) := by
  intro shared
  exact ⟨trace_eq turns shared, poisoned_after turns shared⟩

end Shared

end AtomicRules

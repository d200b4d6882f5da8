import AtomicRules.Session

/-!
# The shared session

One session for all callers of a process, behind a lock. An action that panics while it holds the
lock poisons it, but the next caller takes the session over with all that the action had done. So
a panic neither loses nor repeats any work.
-/

namespace AtomicRules

/-- How an action on the shared session ends. -/
inductive Outcome (α : Type) where
  | returned (value : α)
  | panicked
deriving DecidableEq

/-- The same end with another value. -/
def Outcome.map {α β : Type} (f : α → β) : Outcome α → Outcome β
  | .returned value => .returned (f value)
  | .panicked => .panicked

/-- The session behind its lock. -/
structure Shared (σ : Type) where
  session : Session σ
  poisoned : Bool := false

namespace Shared

variable {σ α : Type}

/-- The shared session before its first use: default settings, and no live sheet. -/
def fresh : Shared σ where
  session := Session.start {}

/-- Takes the lock. A poisoned lock gives out its session as an error. -/
def acquire (shared : Shared σ) : Except (Session σ) (Session σ) :=
  if shared.poisoned then .error shared.session else .ok shared.session

/-- The session of a lock, taken over from a poisoned one. -/
def recover : Except (Session σ) (Session σ) → Session σ
  | .ok session => session
  | .error session => session

/-- Runs an action that may panic on the session. -/
def run (action : StateM (Session σ) (Outcome α)) : StateM (Shared σ) (Outcome α) := fun shared =>
  let (outcome, session) := action (recover shared.acquire)
  let panicked := match outcome with
    | .returned _ => false
    | .panicked => true
  (outcome, { session, poisoned := shared.poisoned || panicked })

/-- The classes of a block in the shared session, as the text of a class attribute. -/
def classText [LiveSheet σ] (block : Block) : StateM (Shared σ) (Outcome String) :=
  run (.returned <$> Session.classText block)

/-- All rules of the shared session as a style sheet. -/
def css : StateM (Shared σ) (Outcome String) :=
  run fun session => (.returned session.css, session)

/-- Whether or not the lock is poisoned, it gives out the session as it was left. -/
@[simp] theorem recover_acquire (shared : Shared σ) : recover shared.acquire = shared.session := by
  unfold acquire
  split <;> rfl

end Shared

end AtomicRules

import AtomicRules.Session
import Mathlib.Data.List.Basic

/-!
# What a session remembers

A request is either known to a session or new to it. A known one is answered as it was the first
time and changes nothing (`answer_of_known`), a new one is learned (`answer_of_new`), and what was
learned is never forgotten (`Extends`). So all answers ever given can be read off a later session
(`answerAll_eq_recalled`), and requests that are all known leave a session as it is
(`answerAll_of_known`).
-/

namespace AtomicRules

namespace Request

/-- The rule that a request adds as the one with the given index in the ledger. -/
def rule (stem : String) (index : Nat) : Request → String
  | .atom ⟨media?, selectors, property, value⟩ =>
      let selector := "." ++ ClassName.make stem index ++ String.join selectors
      Rule.wrap media? (Rule.wrap (some selector) (Rule.declaration property value))
  | .keyframes text => text

/-- The report of the rule that a request adds as the one with the given index. -/
def report (stem : String) (index : Nat) (request : Request) : Journal.Record :=
  match request with
  | .atom _ => Session.classReport (ClassName.make stem index) (request.rule stem index)
  | .keyframes rule => Session.keyframesReport rule

/-- The class that goes with the rule at an index. An animation has none. -/
def class? (stem : String) (index : Nat) : Request → Option String
  | .atom _ => some (ClassName.make stem index)
  | .keyframes _ => none

/-- A request is reported as a trace. -/
theorem severity_report (stem : String) (index : Nat) (request : Request) :
    (request.report stem index).severity = .trace := by
  cases request <;> rfl

/-- The atom that is asked for, if it is one. -/
def atom? : Request → Option Atom
  | .atom declaration => some declaration
  | .keyframes _ => none

end Request

/-- The atoms of a block's leaves, in order. -/
def Block.atoms (block : Block) : List Atom :=
  (block.requests Scope.root).filterMap Request.atom?

/-- A block has the atoms that it asks for. -/
theorem Block.mem_atoms {block : Block} {atom : Atom} :
    atom ∈ block.atoms ↔ .atom atom ∈ block.requests Scope.root := by
  rw [Block.atoms, List.mem_filterMap]
  constructor
  · rintro ⟨request, hrequest, hatom⟩
    cases request with
    | atom => cases hatom; exact hrequest
    | keyframes => contradiction
  · intro h
    exact ⟨_, h, rfl⟩

namespace Session

variable {σ : Type}

/-- The answer that a session gave to a request before. -/
def known? (session : Session σ) : Request → Option (Option String)
  | .atom atom => (session.classes.get? atom).map some
  | .keyframes rule => (session.keyframes.get? rule).map fun () => none

@[simp] theorem known?_atom (session : Session σ) (atom : Atom) :
    session.known? (.atom atom) = (session.classes.get? atom).map some := rfl

@[simp] theorem known?_keyframes (session : Session σ) (rule : String) :
    session.known? (.keyframes rule) = (session.keyframes.get? rule).map fun () => none := rfl

/-- The class that a session gave to a request before. -/
def recalled (session : Session σ) (request : Request) : Option String :=
  (session.known? request).join

/-- The number of requests that were answered, repetitions left out. -/
def memorySize (session : Session σ) : Nat :=
  session.classes.size + session.keyframes.size

/-- The later session knows all that the earlier one knew, with the same answers. -/
def Extends (earlier later : Session σ) : Prop :=
  ∀ request name?, earlier.known? request = some name? → later.known? request = some name?

theorem Extends.refl (session : Session σ) : session.Extends session :=
  fun _ _ h => h

theorem Extends.trans {first second third : Session σ} (h : first.Extends second)
    (h' : second.Extends third) : first.Extends third :=
  fun request name? hknown => h' request name? (h request name? hknown)

/-- A class that an atom has, it keeps. -/
theorem Extends.get?_classes {earlier later : Session σ} (h : earlier.Extends later) {atom : Atom}
    {name : String} (hname : earlier.classes.get? atom = some name) :
    later.classes.get? atom = some name := by
  have hlater := h (.atom atom) (some name) (by rw [known?_atom, hname, Option.map_some])
  obtain ⟨_, hother, hsame⟩ := Option.map_eq_some_iff.1 hlater
  rw [hother, hsame]

variable [LiveSheet σ]

/-- The session with the rule and the answer of a request that was new. -/
def learn (session : Session σ) (request : Request) : Session σ :=
  let stem := session.settings.stem
  let index := session.ledger.size
  let ledger := (session.ledger.report (request.report stem index)).record (request.rule stem index)
  match request with
  | .atom atom =>
      { session with classes := session.classes.insert atom (ClassName.make stem index), ledger }
  | .keyframes rule => { session with keyframes := session.keyframes.insert rule (), ledger }

/-! ## Known and new requests -/

/-- A known request is answered as before, and nothing changes. -/
theorem answer_of_known {session : Session σ} {request : Request} {name? : Option String}
    (h : session.known? request = some name?) : answer request session = (name?, session) := by
  cases request with
  | atom atom =>
      obtain ⟨name, hname, rfl⟩ := Option.map_eq_some_iff.1 h
      exact answer_atom_of_some hname
  | keyframes rule =>
      obtain ⟨⟨⟩, hrule, rfl⟩ := Option.map_eq_some_iff.1 h
      exact answer_keyframes_of_some hrule

/-- A new request is answered by the class of the next index, and it is learned. -/
theorem answer_of_new {session : Session σ} {request : Request}
    (h : session.known? request = none) :
    answer request session =
      (request.class? session.settings.stem session.ledger.size, session.learn request) := by
  cases request with
  | atom atom => exact answer_atom_of_none (Option.map_eq_none_iff.1 h)
  | keyframes rule => exact answer_keyframes_of_none (Option.map_eq_none_iff.1 h)

/-- Learning a request reports it and enters its rule. -/
theorem ledger_learn (session : Session σ) (request : Request) :
    let stem := session.settings.stem
    let index := session.ledger.size
    (session.learn request).ledger =
      (session.ledger.report (request.report stem index)).record (request.rule stem index) := by
  cases request <;> rfl

@[simp] theorem settings_learn (session : Session σ) (request : Request) :
    (session.learn request).settings = session.settings := by
  cases request <;> rfl

/-- Learning a request adds its rule at the end. -/
@[simp] theorem rules_learn (session : Session σ) (request : Request) :
    (session.learn request).ledger.rules =
      session.ledger.rules ++ [request.rule session.settings.stem session.ledger.size] := by
  rw [ledger_learn, Ledger.rules_record, Ledger.rules_report]

/-- Learning a request traces it at the end. -/
theorem traces_learn (session : Session σ) (request : Request) :
    Journal.traces (session.learn request).ledger.journal =
      Journal.traces session.ledger.journal ++
        [request.report session.settings.stem session.ledger.size] := by
  rw [ledger_learn, Ledger.traces_record, Ledger.report, Journal.traces_append]
  simp [Journal.traces, Request.severity_report]

/-- Learning a request makes it known, and all others are as known as they were. -/
theorem known?_learn (session : Session σ) (request other : Request) :
    (session.learn request).known? other =
      if other = request then some (request.class? session.settings.stem session.ledger.size)
      else session.known? other := by
  cases request with
  | atom atom =>
      cases other with
      | atom other =>
          simp only [known?_atom, learn, Memo.get?_insert, Request.atom.injEq]
          split <;> rfl
      | keyframes => rfl
  | keyframes rule =>
      cases other with
      | atom => rfl
      | keyframes other =>
          simp only [known?_keyframes, learn, Memo.get?_insert, Request.keyframes.injEq]
          split <;> rfl

/-- Learning a request adds it to what is remembered. -/
@[simp] theorem memorySize_learn (session : Session σ) (request : Request) :
    (session.learn request).memorySize = session.memorySize + 1 := by
  cases request with
  | atom atom =>
      show session.classes.size + 1 + session.keyframes.size = _
      rw [memorySize, Nat.add_right_comm]
  | keyframes rule => rfl

/-- Once a request is answered, it is known with that answer. -/
theorem known?_answer (request : Request) (session : Session σ) :
    (answer request session).2.known? request = some (answer request session).1 := by
  cases h : session.known? request with
  | some name? => rw [answer_of_known h, h]
  | none => rw [answer_of_new h, known?_learn, if_pos rfl]

/-! ## Answering lists of requests -/

@[simp] theorem answerAll_nil (session : Session σ) : answerAll [] session = ([], session) := rfl

/-- The first of several requests is answered by the session, the others by the one it leaves. -/
theorem answerAll_cons (request : Request) (rest : List Request) (session : Session σ) :
    answerAll (request :: rest) session =
      ((answer request session).1.toList ++ (answerAll rest (answer request session).2).1,
        (answerAll rest (answer request session).2).2) := rfl

/-! ## Nothing is forgotten -/

/-- An answer forgets nothing. -/
theorem extends_answer (request : Request) (session : Session σ) :
    session.Extends (answer request session).2 := by
  cases h : session.known? request with
  | some name? =>
      rw [answer_of_known h]
      exact .refl session
  | none =>
      intro other name? hother
      -- only the new request gets an answer, and it had none that could be lost
      rw [answer_of_new h, known?_learn, if_neg, hother]
      rintro rfl
      rw [h] at hother
      contradiction

/-- Answers to a list of requests forget nothing. -/
theorem extends_answerAll (requests : List Request) (session : Session σ) :
    session.Extends (answerAll requests session).2 := by
  induction requests generalizing session with
  | nil => exact .refl session
  | cons request rest ih =>
      rw [answerAll_cons]
      exact (extends_answer request session).trans (ih _)

/-- After a list of requests was answered, each of them is known. -/
theorem known?_answerAll {requests : List Request} {request : Request} (h : request ∈ requests)
    (session : Session σ) :
    ∃ name?, (answerAll requests session).2.known? request = some name? := by
  induction requests generalizing session with
  | nil => contradiction
  | cons first rest ih =>
      rcases List.mem_cons.1 h with rfl | hrest
      · exact ⟨_, extends_answerAll rest _ _ _ (known?_answer request session)⟩
      · exact ih hrest (answer first session).2

/-- The answers to a list of requests can be read off any later session. -/
theorem answerAll_eq_recalled {requests : List Request} {session later : Session σ}
    (h : (answerAll requests session).2.Extends later) :
    (answerAll requests session).1 = requests.filterMap later.recalled := by
  induction requests generalizing session with
  | nil => rfl
  | cons request rest ih =>
      -- the first answer is still known after the others, and so in the later session
      have hfirst : later.recalled request = (answer request session).1 := by
        have hknown := extends_answerAll rest (answer request session).2 _ _
          (known?_answer request session)
        rw [recalled, h _ _ hknown, Option.join_some]
      have hrest : (answerAll rest (answer request session).2).1 =
          rest.filterMap later.recalled := ih h
      rw [answerAll_cons, hrest, ← hfirst, List.filterMap_cons]
      cases later.recalled request <;> rfl

/-- Requests that are all known are answered as before, and nothing changes. -/
theorem answerAll_of_known {requests : List Request} {session : Session σ}
    (h : ∀ request ∈ requests, ∃ name?, session.known? request = some name?) :
    answerAll requests session = (requests.filterMap session.recalled, session) := by
  have hstate : (answerAll requests session).2 = session := by
    induction requests with
    | nil => rfl
    | cons request rest ih =>
        obtain ⟨name?, hknown⟩ := h request (by simp)
        rw [answerAll_cons, answer_of_known hknown]
        exact ih fun other hother => h other (by simp [hother])
  refine Prod.ext (answerAll_eq_recalled ?_) hstate
  rw [hstate]
  exact .refl session

end Session

end AtomicRules

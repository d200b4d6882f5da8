import AtomicRules.Session
import Mathlib.Control.Basic

/-!
# The walk through a block

A session walks through a block and answers what comes up, while `Block.requests` lists what will
come up without looking at any session. The main statement, `compile_eq_answerAll`, says that the
walk answers exactly this list, in its order, whatever the session knows already.
-/

namespace AtomicRules.Session

variable {σ : Type} [LiveSheet σ]

/-! ## Answering lists of requests -/

/-- Two lists of requests are answered one after the other as their concatenation. -/
theorem answerAll_append (front back : List Request) :
    (answerAll (front ++ back) : StateM (Session σ) (List String)) = do
      let names ← answerAll front
      let others ← answerAll back
      return names ++ others := by
  induction front with
  | nil => simp [answerAll]
  | cons request rest ih =>
      simp only [List.cons_append, answerAll, ih, bind_assoc, pure_bind, List.append_assoc]

/-- One request alone is answered by its class, if it has one. -/
theorem answerAll_singleton (request : Request) :
    (answerAll [request] : StateM (Session σ) (List String)) = do
      let name? ← answer request
      return name?.toList := by
  simp [answerAll]

/-- Actions that each answer a list of requests answer all of the lists in turn. -/
theorem mapM_eq_answerAll {α : Type} {act : α → StateM (Session σ) (List String)}
    {asked : α → List Request} (h : ∀ item, act item = answerAll (asked item)) (items : List α) :
    List.flatten <$> items.mapM act = answerAll (items.flatMap asked) := by
  induction items with
  | nil => simp [answerAll]
  | cons item rest ih =>
      rw [List.flatMap_cons, answerAll_append, ← ih, List.mapM_cons, h item]
      simp

/-! ## The walk -/

/-- A leaf is answered as the one request for its atom. -/
theorem compileLeaf_eq_answerAll (scope : Scope) (piece : String) (leaf : Scalar) :
    (compileLeaf scope piece leaf : StateM (Session σ) (List String)) =
      answerAll [.atom (scope.atom piece leaf)] := by
  rw [answerAll_singleton, compileLeaf]

mutual

/-- The walk through a value answers what the value asks for. -/
theorem compileValue_eq_answerAll (scope : Scope) (piece : String) (value : Value) :
    (compileValue scope piece value : StateM (Session σ) (List String)) =
      answerAll (value.requests scope piece) := by
  cases value with
  | null => simp [compileValue, Value.requests, answerAll]
  | bool => simp [compileValue, Value.requests, answerAll]
  | text value => exact compileLeaf_eq_answerAll scope piece (.text value)
  | number value => exact compileLeaf_eq_answerAll scope piece (.number value)
  | list items =>
      -- the walk does not go into the items, so no induction on them is needed
      have hitems : (Value.list items).requests scope piece =
          (items.filterMap Value.scalar?).flatMap fun leaf =>
            [.atom (scope.atom piece leaf)] := by
        rw [Value.requests, ← List.map_filterMap, List.map_eq_flatMap]
      rw [hitems, ← mapM_eq_answerAll (compileLeaf_eq_answerAll scope piece), compileValue]
      simp
  | block block =>
      rw [compileValue, Value.requests]
      cases Key.kind piece with
      | keyframes => exact (answerAll_singleton _).symm
      | media => exact compileBlock_eq_answerAll (scope.setMedia piece) block
      | selector =>
          exact compileBlock_eq_answerAll (scope.addSelector (Key.selectorPiece piece)) block

/-- The walk through a block answers what the block asks for. -/
theorem compileBlock_eq_answerAll (scope : Scope) (block : Block) :
    (compileBlock scope block : StateM (Session σ) (List String)) =
      answerAll (block.requests scope) := by
  obtain ⟨entries⟩ := block
  exact compileEntries_eq_answerAll scope entries

/-- The walk through entries answers what the entries ask for. -/
theorem compileEntries_eq_answerAll (scope : Scope) (entries : List (String × Value)) :
    (compileEntries scope entries : StateM (Session σ) (List String)) =
      answerAll (Block.requestsOfEntries scope entries) := by
  match entries with
  | [] => simp [compileEntries, answerAll]
  | (key, value) :: rest =>
      rw [Block.requestsOfEntries, answerAll_append,
        ← mapM_eq_answerAll fun piece => compileValue_eq_answerAll scope piece value,
        ← compileEntries_eq_answerAll scope rest, compileEntries]
      simp

end

/-- Compiling a block answers its requests in order. -/
theorem compile_eq_answerAll (block : Block) :
    (compile block : StateM (Session σ) (List String)) =
      answerAll (block.requests Scope.root) :=
  compileBlock_eq_answerAll Scope.root block

end AtomicRules.Session

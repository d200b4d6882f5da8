import AtomicRules.Entries

/-!
# Memos

A memo keeps, for every key it was asked for, the value that was minted the first time. Minting
may have effects, so it is an action, and it runs only for a key that is new.
-/

namespace AtomicRules

/-- What was minted so far, key by key, the latest first. -/
structure Memo (κ α : Type) where
  entries : List (κ × α)

namespace Memo

variable {κ α : Type} [DecidableEq κ]

/-- The memo that was never asked. -/
def empty : Memo κ α := ⟨[]⟩

instance : EmptyCollection (Memo κ α) := ⟨empty⟩

/-- The value minted for a key. -/
def get? (memo : Memo κ α) (key : κ) : Option α :=
  Entries.lookup key memo.entries

/-- A value was minted for the key. -/
def contains (memo : Memo κ α) (key : κ) : Bool :=
  (memo.get? key).isSome

/-- The number of keys with a value. -/
def size (memo : Memo κ α) : Nat :=
  memo.entries.length

/-- No value was minted. -/
def isEmpty (memo : Memo κ α) : Bool :=
  memo.entries.isEmpty

/-- The memo with a value for a key that had none. -/
def insert (memo : Memo κ α) (key : κ) (value : α) : Memo κ α :=
  ⟨(key, value) :: memo.entries⟩

/-- The value for a key, and the memo that has it. It is minted now if the key is new. -/
def getOrMint {m : Type → Type} [Monad m] (memo : Memo κ α) (key : κ) (mint : m α) :
    m (α × Memo κ α) :=
  match memo.get? key with
  | some value => pure (value, memo)
  | none => do
      let value ← mint
      pure (value, memo.insert key value)

theorem get?_empty (key : κ) : (empty : Memo κ α).get? key = none := rfl

/-- After an insertion its key has the value, and every other key has what it had. -/
theorem get?_insert (memo : Memo κ α) (key other : κ) (value : α) :
    (memo.insert key value).get? other = if other = key then some value else memo.get? other := by
  simp only [get?, insert, Entries.lookup, eq_comm]

omit [DecidableEq κ] in
/-- An insertion adds one key. -/
theorem size_insert (memo : Memo κ α) (key : κ) (value : α) :
    (memo.insert key value).size = memo.size + 1 := rfl

/-- For a known key nothing is minted. -/
theorem getOrMint_of_some {m : Type → Type} [Monad m] {memo : Memo κ α} {key : κ} {value : α}
    (h : memo.get? key = some value) (mint : m α) :
    memo.getOrMint key mint = pure (value, memo) := by
  simp [getOrMint, h]

/-- For a new key the action runs once, and its value is kept. -/
theorem getOrMint_of_none {m : Type → Type} [Monad m] {memo : Memo κ α} {key : κ}
    (h : memo.get? key = none) (mint : m α) :
    memo.getOrMint key mint = mint >>= fun value => pure (value, memo.insert key value) := by
  simp [getOrMint, h]

end Memo

end AtomicRules

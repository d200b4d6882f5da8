/-!
# Entries in order of arrival

A list of key and value pairs in which every key keeps the place of its first arrival. `put`
stores a value under a key, at the key's place or else at the end. `lookup_put` says what is found
afterwards and `keys_put` what the keys are.
-/

namespace AtomicRules.Entries

universe u v

variable {κ : Type u} {α : Type v} [DecidableEq κ]

/-- The keys in order. -/
def keys (entries : List (κ × α)) : List κ :=
  entries.map (·.1)

/-- Stores a value under a key. A key that is there keeps its place. -/
def put (key : κ) (value : α) : List (κ × α) → List (κ × α)
  | [] => [(key, value)]
  | (k, v) :: rest => if k = key then (k, value) :: rest else (k, v) :: put key value rest

/-- The value under a key. -/
def lookup (key : κ) : List (κ × α) → Option α
  | [] => none
  | (k, v) :: rest => if k = key then some v else lookup key rest

/-- A new key comes last, and a known key changes no place. -/
theorem keys_put (key : κ) (value : α) (entries : List (κ × α)) :
    keys (put key value entries) =
      if key ∈ keys entries then keys entries else keys entries ++ [key] := by
  induction entries with
  | nil => simp [put, keys]
  | cons entry rest ih =>
      obtain ⟨k, v⟩ := entry
      by_cases h : k = key
      · simp [put, keys, h]
      · simp only [keys] at ih
        by_cases known : key ∈ rest.map (·.1) <;> simp [put, keys, h, Ne.symm h, ih, known]

/-- After `put` the value is found under its key, and every other key has what it had. -/
theorem lookup_put (key other : κ) (value : α) (entries : List (κ × α)) :
    lookup other (put key value entries) =
      if other = key then some value else lookup other entries := by
  induction entries with
  | nil => simp [put, lookup, eq_comm]
  | cons entry rest ih =>
      obtain ⟨k, v⟩ := entry
      by_cases h : k = key <;> by_cases h' : other = key <;> grind [put, lookup]

/-- A value is found exactly under the keys. -/
theorem isSome_lookup_iff (key : κ) (entries : List (κ × α)) :
    (lookup key entries).isSome ↔ key ∈ keys entries := by
  induction entries with
  | nil => simp [lookup, keys]
  | cons entry rest ih =>
      obtain ⟨k, v⟩ := entry
      by_cases h : k = key
      · simp [lookup, keys, h]
      · simp only [keys] at ih
        simp [lookup, keys, h, Ne.symm h, ih]

end AtomicRules.Entries

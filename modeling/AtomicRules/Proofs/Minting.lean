import AtomicRules.Css.Atom
import AtomicRules.Memo
import AtomicRules.Proofs.Distinct
import Mathlib.Data.List.Basic
import Mathlib.Data.List.Forall2

/-!
# Minting once

A memo is asked for values, for whether a key has one and for the number of keys, in any order. Its
mints are actions that read and change a world of any kind, and each of them leaves a note when it
runs. Whatever the uses are, a mint runs exactly in those that are the first to ask for their key,
and all that ask for the key get what it minted (`Run.mintsOnce_after`).

The statement rests on what a memo remembers of the uses before (`Run.Remembers`), and every use
is remembered as the latest (`Run.Remembers.use`).
-/

namespace AtomicRules.Memo

variable {ω κ α : Type}

/-- A use of a memo. -/
inductive Use (ω κ α : Type) where
  /-- The value for a key, and what mints it if the key is new. -/
  | getOrMint (key : κ) (mint : StateM ω α)
  /-- Whether a value was minted for a key. -/
  | contains (key : κ)
  /-- The number of keys with a value. -/
  | size

/-- What a use returns. -/
inductive Answer (α : Type) where
  | value (value : α)
  | flag (flag : Bool)
  | count (count : Nat)
deriving DecidableEq

/-! ## The first use for a key -/

namespace Use

/-- The key whose value is asked for. -/
def key? : Use ω κ α → Option κ
  | .getOrMint key _ => some key
  | .contains _ => none
  | .size => none

/-- The keys whose values are asked for, in order and with repetitions. -/
def keys (uses : List (Use ω κ α)) : List κ :=
  uses.filterMap key?

/-- The use at the place asks for the value of the key. -/
def AsksFor (uses : List (Use ω κ α)) (place : Nat) (key : κ) : Prop :=
  uses[place]?.bind key? = some key

/-- The use at the place is the first one that asks for the value of the key. -/
def IsFirst (uses : List (Use ω κ α)) (place : Nat) (key : κ) : Prop :=
  AsksFor uses place key ∧ key ∉ keys (uses.take place)

theorem keys_concat (past : List (Use ω κ α)) (next : Use ω κ α) :
    keys (past ++ [next]) = keys past ++ next.key?.toList := by
  rw [keys, List.filterMap_append, ← keys]
  cases h : next.key? <;> simp [h]

variable {past : List (Use ω κ α)} {place : Nat} {key : κ}

theorem AsksFor.lt (h : AsksFor past place key) : place < past.length := by
  by_contra hle
  rw [AsksFor, List.getElem?_eq_none (by omega)] at h
  contradiction

theorem AsksFor.mem_keys (h : AsksFor past place key) : key ∈ keys past := by
  obtain ⟨next, hnext, hkey⟩ := Option.bind_eq_some_iff.1 h
  exact List.mem_filterMap.2 ⟨next, List.mem_of_getElem? hnext, hkey⟩

/-- Which use is the first one does not depend on later uses. -/
theorem isFirst_append (later : List (Use ω κ α)) (h : place < past.length) :
    IsFirst (past ++ later) place key ↔ IsFirst past place key := by
  rw [IsFirst, AsksFor, List.getElem?_append_left h,
    List.take_append_of_le_length (Nat.le_of_lt h)]
  rfl

theorem IsFirst.append (h : IsFirst past place key) (later : List (Use ω κ α)) :
    IsFirst (past ++ later) place key :=
  (isFirst_append later h.1.lt).2 h

theorem IsFirst.of_take {uses : List (Use ω κ α)} {count : Nat}
    (h : IsFirst (uses.take count) place key) : IsFirst uses place key := by
  rw [← List.take_append_drop count uses]
  exact h.append _

/-- One more use is the first for its key if no use before it asks for the key. -/
theorem isFirst_concat {next : Use ω κ α} :
    IsFirst (past ++ [next]) place key ↔
      IsFirst past place key ∨ place = past.length ∧ next.key? = some key ∧ key ∉ keys past := by
  constructor
  · intro h
    rcases Nat.lt_or_ge place past.length with hlt | hge
    · exact .inl ((isFirst_append [next] hlt).1 h)
    · have hplace : place = past.length := by
        have hlt := h.1.lt
        rw [List.length_append, List.length_singleton] at hlt
        omega
      subst hplace
      rw [IsFirst, AsksFor, List.getElem?_concat_length, List.take_left] at h
      exact .inr ⟨rfl, h⟩
  · rintro (h | ⟨rfl, hkey, hnew⟩)
    · exact h.append [next]
    · rw [IsFirst, AsksFor, List.getElem?_concat_length, List.take_left]
      exact ⟨hkey, hnew⟩

/-- A key that is asked for is asked for a first time. -/
theorem exists_isFirst (h : key ∈ keys past) : ∃ place, IsFirst past place key := by
  induction past using List.reverseRecOn with
  | nil => contradiction
  | append_singleton past next ih =>
      -- the last use is the first one for the key unless an earlier use asked for it
      by_cases hold : key ∈ keys past
      · obtain ⟨place, hplace⟩ := ih hold
        exact ⟨place, hplace.append [next]⟩
      · rw [keys_concat, List.mem_append, Option.mem_toList] at h
        exact ⟨past.length, isFirst_concat.2 (.inr ⟨rfl, h.resolve_left hold, hold⟩)⟩

/-- A use that asks for no new key is not the first one for any. -/
theorem isFirst_concat_of_known {next : Use ω κ α}
    (hnext : ∀ key, next.key? = some key → key ∈ keys past) :
    IsFirst (past ++ [next]) place key ↔ IsFirst past place key := by
  rw [isFirst_concat]
  refine or_iff_left ?_
  rintro ⟨-, hkey, hnew⟩
  exact hnew (hnext key hkey)

end Use

open Use

/-! ## Using a memo -/

/-- The world that mints run in, and a note of each that ran: the place of its use and the value. -/
structure Notebook (ω α : Type) where
  world : ω
  notes : List (Nat × α) := []

/-- The mint of the use at a place. When it runs, it leaves a note. -/
def noted (place : Nat) (mint : StateM ω α) : StateM (Notebook ω α) α := fun notebook =>
  let (value, world) := mint notebook.world
  (value, ⟨world, notebook.notes ++ [(place, value)]⟩)

/-- A memo in use, with its notebook and all answers so far. -/
structure Run (ω κ α : Type) where
  memo : Memo κ α
  notebook : Notebook ω α
  answers : List (Answer α)

namespace Run

variable [DecidableEq κ]

/-- A memo that was never used. -/
def fresh (world : ω) : Run ω κ α :=
  ⟨∅, { world }, []⟩

/-- Uses the memo. The place of the use is the number of answers before it. -/
def use (run : Run ω κ α) : Use ω κ α → Run ω κ α
  | .getOrMint key mint =>
      let ((value, memo), notebook) :=
        (run.memo.getOrMint key (noted run.answers.length mint)).run run.notebook
      ⟨memo, notebook, run.answers ++ [.value value]⟩
  | .contains key => { run with answers := run.answers ++ [.flag (run.memo.contains key)] }
  | .size => { run with answers := run.answers ++ [.count run.memo.size] }

/-- Uses the memo again and again. -/
def after (run : Run ω κ α) (uses : List (Use ω κ α)) : Run ω κ α :=
  uses.foldl use run

variable {run : Run ω κ α} {key : κ} {value : α}

/-- The value of a known key is returned, and no mint runs. -/
theorem use_of_some (h : run.memo.get? key = some value) (mint : StateM ω α) :
    run.use (.getOrMint key mint) = { run with answers := run.answers ++ [.value value] } := by
  simp only [use, getOrMint_of_some h]
  rfl

/-- For a new key the mint runs, and its value is kept and returned. -/
theorem use_of_none (h : run.memo.get? key = none) (mint : StateM ω α) :
    run.use (.getOrMint key mint) =
      let minted := mint run.notebook.world
      ⟨run.memo.insert key minted.1,
        ⟨minted.2, run.notebook.notes ++ [(run.answers.length, minted.1)]⟩,
        run.answers ++ [.value minted.1]⟩ := by
  simp only [use, getOrMint_of_none h]
  rfl

/-- A use is answered after all others. -/
theorem exists_answer (run : Run ω κ α) (next : Use ω κ α) :
    ∃ answer, (run.use next).answers = run.answers ++ [answer] := by
  cases next <;> exact ⟨_, rfl⟩

/-- No note is lost. -/
theorem notes_prefix_use (run : Run ω κ α) (next : Use ω κ α) :
    run.notebook.notes <+: (run.use next).notebook.notes := by
  cases next with
  | getOrMint key mint =>
      cases h : run.memo.get? key with
      | some value => simp only [use_of_some h, List.prefix_refl]
      | none =>
          rw [use_of_none h]
          exact List.prefix_append _ _
  | contains key => exact List.prefix_refl _
  | size => exact List.prefix_refl _

/-- Answers and notes stay as they are when the memo is used again. -/
theorem prefix_after (run : Run ω κ α) (uses : List (Use ω κ α)) :
    run.answers <+: (run.after uses).answers ∧
      run.notebook.notes <+: (run.after uses).notebook.notes := by
  induction uses generalizing run with
  | nil => exact ⟨List.prefix_refl _, List.prefix_refl _⟩
  | cons next rest ih =>
      obtain ⟨hanswers, hnotes⟩ := ih (run.use next)
      obtain ⟨answer, hanswer⟩ := exists_answer run next
      refine ⟨List.IsPrefix.trans ?_ hanswers, (notes_prefix_use run next).trans hnotes⟩
      rw [hanswer]
      exact List.prefix_append _ _

/-- The value that is returned is the one that is kept. -/
theorem exists_value (run : Run ω κ α) (key : κ) (mint : StateM ω α) :
    ∃ value, (run.use (.getOrMint key mint)).memo.get? key = some value ∧
      (run.use (.getOrMint key mint)).answers = run.answers ++ [.value value] := by
  cases h : run.memo.get? key with
  | some value =>
      rw [use_of_some h]
      exact ⟨value, h, rfl⟩
  | none =>
      rw [use_of_none h]
      exact ⟨_, (get?_insert _ _ _ _).trans (if_pos rfl), rfl⟩

/-- One more use of a run is a use of the memo that the uses before it leave. -/
theorem after_take_succ {uses : List (Use ω κ α)} {place : Nat} {next : Use ω κ α}
    (h : uses[place]? = some next) (run : Run ω κ α) :
    run.after (uses.take (place + 1)) = (run.after (uses.take place)).use next := by
  rw [List.take_add_one, h, Option.toList_some, after, List.foldl_concat]
  rfl

/-- The first uses of a run have their answers and notes in the end. -/
theorem prefix_after_take (run : Run ω κ α) (uses : List (Use ω κ α)) (count : Nat) :
    (run.after (uses.take count)).answers <+: (run.after uses).answers ∧
      (run.after (uses.take count)).notebook.notes <+: (run.after uses).notebook.notes := by
  have hsplit : run.after uses = (run.after (uses.take count)).after (uses.drop count) := by
    rw [after, after, after, ← List.foldl_append, List.take_append_drop]
  rw [hsplit]
  exact prefix_after _ _

/-! ## What a memo remembers -/

/-- The memo has been put to these uses and no others. -/
structure Remembers (past : List (Use ω κ α)) (run : Run ω κ α) : Prop where
  length : run.answers.length = past.length
  known : ∀ key, run.memo.contains key ↔ key ∈ keys past
  size : run.memo.size = (keys past).eraseDups.length
  minted : ∀ key value, run.memo.get? key = some value →
    ∃ place, IsFirst past place key ∧ (place, value) ∈ run.notebook.notes
  places : ∀ place, place ∈ run.notebook.notes.map Prod.fst ↔ ∃ key, IsFirst past place key
  inOrder : (run.notebook.notes.map Prod.fst).Pairwise (· < ·)

theorem remembers_fresh (world : ω) : Remembers [] (fresh world : Run ω κ α) where
  length := rfl
  known := fun key => by
    show (empty : Memo κ α).contains key ↔ key ∈ []
    rw [contains, get?_empty]
    simp
  size := rfl
  minted := fun key value h => by contradiction
  places := fun place => by simp [fresh, IsFirst, AsksFor]
  inOrder := .nil

/-- A use that asks for no new key is answered, and that is all. -/
theorem Remembers.concat_of_known {past : List (Use ω κ α)} (h : Remembers past run)
    {next : Use ω κ α} (hnext : ∀ key, next.key? = some key → key ∈ keys past)
    (answer : Answer α) :
    Remembers (past ++ [next]) { run with answers := run.answers ++ [answer] } := by
  have hfirst (place : Nat) (key : κ) :
      IsFirst (past ++ [next]) place key ↔ IsFirst past place key :=
    isFirst_concat_of_known hnext
  have hkeys : ∀ key, key ∈ keys (past ++ [next]) ↔ key ∈ keys past := by
    intro key
    rw [keys_concat, List.mem_append, Option.mem_toList]
    exact or_iff_left_of_imp (hnext key)
  have hdistinct : (keys (past ++ [next])).eraseDups = (keys past).eraseDups := by
    rw [keys_concat]
    cases hkey : next.key? with
    | none => rw [Option.toList_none, List.append_nil]
    | some key => rw [Option.toList_some, eraseDups_concat, if_pos (hnext key hkey)]
  refine ⟨?_, ?_, ?_, ?_, ?_, h.inOrder⟩
  · rw [List.length_append, List.length_append, h.length]
    rfl
  · intro key
    rw [hkeys, ← h.known]
  · rw [hdistinct, ← h.size]
  · simpa only [hfirst] using h.minted
  · simpa only [hfirst] using h.places

/-- A mint that runs in the first use for a key leaves the value and a note. -/
theorem Remembers.mint {past : List (Use ω κ α)} (h : Remembers past run)
    (hnew : key ∉ keys past) (mint : StateM ω α) (world : ω) (value : α) :
    Remembers (past ++ [.getOrMint key mint])
      ⟨run.memo.insert key value, ⟨world, run.notebook.notes ++ [(past.length, value)]⟩,
        run.answers ++ [.value value]⟩ := by
  have hkeys : keys (past ++ [.getOrMint key mint]) = keys past ++ [key] := keys_concat _ _
  refine ⟨?_, ?_, ?_, ?_, ?_, ?_⟩
  · rw [List.length_append, List.length_append, h.length]
    rfl
  · intro other
    rw [hkeys, List.mem_append, List.mem_singleton, ← h.known, contains, get?_insert, contains]
    by_cases hother : other = key <;> simp [hother]
  · rw [size_insert, h.size, hkeys, eraseDups_concat, if_neg hnew, List.length_append]
    rfl
  · intro other held hheld
    rw [get?_insert] at hheld
    split at hheld
    · next hother =>
        cases hheld
        subst hother
        exact ⟨past.length, isFirst_concat.2 (.inr ⟨rfl, rfl, hnew⟩), by simp⟩
    · obtain ⟨place, hplace, hnote⟩ := h.minted other held hheld
      exact ⟨place, hplace.append _, List.mem_append_left _ hnote⟩
  · intro place
    simp only [isFirst_concat, exists_or, List.map_append, List.mem_append, h.places]
    refine or_congr_right ?_
    simp [key?, hnew]
  · rw [List.map_append, List.pairwise_append]
    refine ⟨h.inOrder, List.pairwise_singleton _ _, ?_⟩
    intro place hplace last hlast
    obtain ⟨_, hfirst⟩ := (h.places place).1 hplace
    rw [List.mem_singleton.1 hlast]
    exact hfirst.1.lt

/-- A use is remembered. -/
theorem Remembers.use {past : List (Use ω κ α)} (h : Remembers past run) (next : Use ω κ α) :
    Remembers (past ++ [next]) (run.use next) := by
  cases next with
  | getOrMint key mint =>
      cases hget : run.memo.get? key with
      | some value =>
          have hknown : key ∈ keys past := (h.known key).1 (by rw [contains, hget]; rfl)
          rw [use_of_some hget]
          refine h.concat_of_known (fun other hother => ?_) _
          cases hother
          exact hknown
      | none =>
          have hnew : key ∉ keys past := by
            rw [← h.known, contains, hget]
            exact Bool.false_ne_true
          rw [use_of_none hget, h.length]
          exact h.mint hnew mint _ _
  | contains key => exact h.concat_of_known (fun _ hkey => by contradiction) _
  | size => exact h.concat_of_known (fun _ hkey => by contradiction) _

/-- All uses are remembered. -/
theorem remembers_after (uses : List (Use ω κ α)) (world : ω) :
    Remembers uses ((fresh world).after uses) := by
  -- from the end, since the place of a use is the number of uses before it
  induction uses using List.reverseRecOn with
  | nil => exact remembers_fresh world
  | append_singleton past next ih =>
      rw [after, List.foldl_concat]
      exact ih.use next

/-- The answer to a use is found at its place in the end. -/
theorem answer_after {uses : List (Use ω κ α)} {place : Nat} {next : Use ω κ α}
    (h : uses[place]? = some next) {world : ω} {answer : Answer α}
    (hanswer : (((fresh world).after (uses.take place)).use next).answers =
      ((fresh world).after (uses.take place)).answers ++ [answer]) :
    ((fresh world).after uses).answers[place]? = some answer := by
  obtain ⟨hlt, -⟩ := List.getElem?_eq_some_iff.1 h
  have hplace : ((fresh world).after (uses.take place)).answers.length = place := by
    rw [(remembers_after _ world).length, List.length_take, Nat.min_eq_left (Nat.le_of_lt hlt)]
  obtain ⟨⟨later, hlater⟩, -⟩ := prefix_after_take (fresh world) uses (place + 1)
  rw [← hlater, after_take_succ h, hanswer, List.append_assoc,
    List.getElem?_append_right (Nat.le_of_eq hplace), hplace, Nat.sub_self]
  rfl

end Run

/-! ## What uses return -/

/-- The answers to the uses, and the mints that ran for them. Every use is answered. Mints run in
order, in the first use for each key and in no other, and all uses for the key get what was minted
then. A key is contained once it was asked for, and the size is the number of distinct keys that
were asked for. -/
structure MintsOnce [DecidableEq κ] (uses : List (Use ω κ α)) (run : Run ω κ α) : Prop where
  length : run.answers.length = uses.length
  places : ∀ place, place ∈ run.notebook.notes.map Prod.fst ↔ ∃ key, IsFirst uses place key
  inOrder : (run.notebook.notes.map Prod.fst).Pairwise (· < ·)
  values : ∀ place key, AsksFor uses place key → ∃ first value, IsFirst uses first key ∧
    (first, value) ∈ run.notebook.notes ∧ run.answers[place]? = some (.value value)
  flags : ∀ place key, uses[place]? = some (Use.contains key) →
    run.answers[place]? = some (Answer.flag (decide (key ∈ keys (uses.take place))))
  counts : ∀ place, uses[place]? = some Use.size →
    run.answers[place]? = some (Answer.count (keys (uses.take place)).eraseDups.length)

/-- A memo that was never used before mints once for each key. -/
theorem Run.mintsOnce_after [DecidableEq κ] (uses : List (Use ω κ α)) (world : ω) :
    MintsOnce uses ((fresh world).after uses) := by
  have hall := remembers_after uses world
  refine ⟨hall.length, hall.places, hall.inOrder, ?_, ?_, ?_⟩
  · intro place key hkey
    obtain ⟨next, hnext, hnextKey⟩ := Option.bind_eq_some_iff.1 hkey
    cases next with
    | getOrMint other mint =>
        cases hnextKey
        -- what is returned here is in the memo right after, so a first use before has a note of it
        obtain ⟨value, hvalue, hanswer⟩ :=
          exists_value ((fresh world).after (uses.take place)) key mint
        rw [← after_take_succ hnext] at hvalue
        obtain ⟨first, hfirst, hnote⟩ := (remembers_after _ world).minted key value hvalue
        exact ⟨first, value, hfirst.of_take,
          (prefix_after_take _ uses (place + 1)).2.subset hnote, answer_after hnext hanswer⟩
    | contains other => contradiction
    | size => contradiction
  · intro place key hnext
    have hpast := remembers_after (uses.take place) world
    have hflag : ((fresh world).after (uses.take place)).memo.contains key =
        decide (key ∈ keys (uses.take place)) := by
      rw [Bool.eq_iff_iff, decide_eq_true_iff]
      exact hpast.known key
    rw [← hflag]
    exact answer_after hnext rfl
  · intro place hnext
    rw [← (remembers_after (uses.take place) world).size]
    exact answer_after hnext rfl

/-- Whatever a memo is used for after it was made, and whatever its mints do, it mints once for each
key, in the first use that asks for it. Where the keys are atoms, two uses share a mint exactly if
their atoms agree in the media query, in the selector pieces one by one, in the property and in the
value. -/
theorem fresh_mints_once :
    (∀ {ω κ α : Type} [DecidableEq κ] (uses : List (Use ω κ α)) (world : ω),
        MintsOnce uses ((Run.fresh world).after uses)) ∧
      ∀ {ω α : Type} (uses : List (Use ω Atom α)) (place otherPlace : Nat) (atom other : Atom),
        AsksFor uses place atom → AsksFor uses otherPlace other →
          ((∃ first, IsFirst uses first atom ∧ IsFirst uses first other) ↔
            atom.media? = other.media? ∧ List.Forall₂ Eq atom.selectors other.selectors ∧
              atom.property = other.property ∧ atom.value = other.value) := by
  refine ⟨fun uses world => Run.mintsOnce_after uses world, ?_⟩
  intro ω α uses place otherPlace atom other hatom hother
  constructor
  · rintro ⟨first, hfirst, hsame⟩
    cases Option.some.inj (hfirst.1.symm.trans hsame.1)
    exact ⟨rfl, List.forall₂_refl _, rfl, rfl⟩
  · rintro ⟨hmedia, hselectors, hproperty, hvalue⟩
    have heq : atom = other := by
      cases atom
      cases other
      rw [List.forall₂_eq_eq_eq] at hselectors
      cases hmedia; cases hselectors; cases hproperty; cases hvalue
      rfl
    obtain ⟨first, hfirst⟩ := exists_isFirst hatom.mem_keys
    exact ⟨first, hfirst, heq ▸ hfirst⟩

/-- Two selector pieces are not one piece of the same text, and no media query is not an empty
one. -/
theorem fresh_mints_once_pieces :
    let pieces : Atom := ⟨none, [" a", "b"], "color", "red"⟩
    let piece : Atom := ⟨none, [" ab"], "color", "red"⟩
    let framed : Atom := ⟨some "", [" a", "b"], "color", "red"⟩
    let counted : StateM Nat Nat := fun count => (count, count + 1)
    let uses : List (Use Nat Atom Nat) := [.contains pieces, .getOrMint pieces counted,
      .getOrMint piece counted, .contains framed, .getOrMint pieces counted,
      .getOrMint framed counted, .size]
    let run := (Run.fresh 0).after uses
    run.answers = [.flag false, .value 0, .value 1, .flag false, .value 0, .value 2, .count 3] ∧
      run.notebook.notes = [(1, 0), (2, 1), (5, 2)] ∧
      MintsOnce uses run ∧
      AsksFor uses 4 pieces ∧ AsksFor uses 2 piece ∧ AsksFor uses 5 framed ∧
      (¬ ∃ first, IsFirst uses first pieces ∧ IsFirst uses first piece) ∧
      ¬ ∃ first, IsFirst uses first pieces ∧ IsFirst uses first framed := by
  intro pieces piece framed counted uses run
  have hpieces : AsksFor uses 4 pieces := rfl
  have hpiece : AsksFor uses 2 piece := rfl
  have hframed : AsksFor uses 5 framed := rfl
  obtain ⟨hmints, hshared⟩ := fresh_mints_once
  refine ⟨by decide +kernel, by decide +kernel, hmints uses 0, hpieces, hpiece, hframed, ?_, ?_⟩
  · rw [hshared uses 4 2 pieces piece hpieces hpiece]
    rintro ⟨-, hselectors, -⟩
    cases hselectors.length_eq
  · rw [hshared uses 4 5 pieces framed hpieces hframed]
    rintro ⟨hmedia, -⟩
    cases hmedia

end AtomicRules.Memo

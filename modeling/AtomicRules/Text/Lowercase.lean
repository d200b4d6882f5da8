import AtomicRules.Text.Lowercase.Table

/-!
# Lower casing

The full Unicode lower casing of a text, independent of language. Every character is lowered on
its own (`lowerChar`), with one exception: a capital sigma that ends a word becomes `ς`, and any
other becomes `σ`. On text without capitals lower casing changes nothing (`lower_eq_self`).
-/

namespace AtomicRules.Text

/-- The code point of the simple lower case. -/
def lowerCode (code : Nat) : Nat :=
  match lowerRuns.find? (·.covers code) with
  | some run => run.target + (code - run.first)
  | none => code

/-- The lower case of a character outside any context. The capital I with a dot is the only one
whose lower case is two characters. -/
def lowerChar (c : Char) : List Char :=
  if c = 'İ' then ['i', '\u0307'] else [Char.ofNat (lowerCode c.toNat)]

/-- The first character of the text that is not ignored for casing is a cased letter. -/
def startsCased (text : List Char) : Bool :=
  (text.dropWhile caseIgnorable.contains).head?.any casedLetters.contains

/-- The lower case of a capital sigma between two texts, the one before it read backwards. It is
final when a cased letter comes before it and none after it. -/
def lowerSigma (before after : List Char) : Char :=
  if startsCased before && !startsCased after then 'ς' else 'σ'

/-- The lower case of a text that stands after `before`, which is given backwards. -/
def lowerAfter (before : List Char) : List Char → List Char
  | [] => []
  | c :: rest =>
      let lowered := if c = 'Σ' then [lowerSigma before rest] else lowerChar c
      lowered ++ lowerAfter (c :: before) rest

/-- The lower case of a text. -/
def lower (text : List Char) : List Char :=
  lowerAfter [] text

/-- Characters that are their own lower case stay, whatever comes before them. -/
theorem lowerAfter_eq_self {text : List Char} (before : List Char)
    (h : ∀ c ∈ text, c ≠ 'Σ' ∧ lowerChar c = [c]) : lowerAfter before text = text := by
  induction text generalizing before with
  | nil => rfl
  | cons c rest ih =>
      obtain ⟨notSigma, own⟩ := h c (by simp)
      rw [lowerAfter, if_neg notSigma, own, ih (c :: before) fun d hd => h d (by simp [hd])]
      rfl

/-- A text of characters that are their own lower case is its own lower case. -/
theorem lower_eq_self {text : List Char} (h : ∀ c ∈ text, c ≠ 'Σ' ∧ lowerChar c = [c]) :
    lower text = text :=
  lowerAfter_eq_self [] h

/-- A sigma after a letter ends the word unless another letter follows. -/
example : lower "ὈΔΥΣΣΕΎΣ".toList = "ὀδυσσεύς".toList := by decide +kernel

/-- A hyphen ends a word, a full stop inside it does not. -/
example : lower "ΑΣ-Σ ΑΣ.Α".toList = "ας-σ ασ.α".toList := by decide +kernel

example : lower "İ ẞ Ǆ K".toList = "i\u0307 ß ǆ k".toList := by decide +kernel

end AtomicRules.Text

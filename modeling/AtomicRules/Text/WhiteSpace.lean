import AtomicRules.Text.CodePoints

/-!
# White space

The characters with the Unicode property `White_Space`, and trimming them from both ends of a
text. A trimmed text has no white space at either end (`isWhiteSpace_head_trim`,
`isWhiteSpace_getLast_trim`), and a text with none is left alone (`trim_eq_self`).
-/

namespace AtomicRules.Text

/-- The characters with the property `White_Space`. -/
def whiteSpace : CodePoints := ⟨[
    (0x9, 0xd), (0x20, 0x20), (0x85, 0x85), (0xa0, 0xa0), (0x1680, 0x1680), (0x2000, 0x200a),
    (0x2028, 0x2029), (0x202f, 0x202f), (0x205f, 0x205f), (0x3000, 0x3000)]⟩

/-- The character is white space. -/
def isWhiteSpace (c : Char) : Bool :=
  whiteSpace.contains c

/-- The text without the white space it ends in. -/
def trimEnd (text : List Char) : List Char :=
  (text.reverse.dropWhile isWhiteSpace).reverse

/-- The text without white space at either end. -/
def trim (text : List Char) : List Char :=
  trimEnd (text.dropWhile isWhiteSpace)

/-- The trimmed text of a string. -/
def trimString (text : String) : String :=
  String.ofList (trim text.toList)

/-- A text without white space at either end is already trimmed. -/
theorem trim_eq_self {text : List Char} (head : ∀ c ∈ text.head?, isWhiteSpace c = false)
    (last : ∀ c ∈ text.getLast?, isWhiteSpace c = false) : trim text = text := by
  have front : text.dropWhile isWhiteSpace = text := by
    cases text with
    | nil => rfl
    | cons c rest => simp [head c rfl]
  have back : text.reverse.dropWhile isWhiteSpace = text.reverse := by
    rw [← List.head?_reverse] at last
    cases h : text.reverse with
    | nil => rfl
    | cons c rest => simp [last c (by simp [h])]
  rw [trim, front, trimEnd, back, List.reverse_reverse]

/-- Trimming the end leaves a beginning of the text. -/
theorem trimEnd_prefix (text : List Char) : trimEnd text <+: text := by
  rw [← List.reverse_suffix, trimEnd, List.reverse_reverse]
  exact List.dropWhile_suffix _

/-- A trimmed text does not begin with white space. -/
theorem isWhiteSpace_head_trim {text : List Char} {c : Char} (h : (trim text).head? = some c) :
    isWhiteSpace c = false := by
  obtain ⟨rest, whole⟩ := trimEnd_prefix (text.dropWhile isWhiteSpace)
  have first : (text.dropWhile isWhiteSpace).head? = some c := by
    rw [← whole, List.head?_append]
    simp [← trim.eq_1, h]
  have outside := List.head?_dropWhile_not isWhiteSpace text
  rwa [first] at outside

/-- A trimmed text does not end in white space. -/
theorem isWhiteSpace_getLast_trim {text : List Char} {c : Char}
    (h : (trim text).getLast? = some c) : isWhiteSpace c = false := by
  rw [trim, trimEnd, List.getLast?_reverse] at h
  have outside := List.head?_dropWhile_not isWhiteSpace (text.dropWhile isWhiteSpace).reverse
  rwa [h] at outside

end AtomicRules.Text

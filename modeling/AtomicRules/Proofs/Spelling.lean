import AtomicRules.Css.Key
import AtomicRules.Proofs.Lowering
import Mathlib.Data.List.Induction

/-!
# Spelled keys

The CSS spelling of a key is its own spelling. What trimming, hyphens, the vendor letters and
lower casing leave is described once (`IsSpelled`), every spelling is of this kind
(`isSpelled_spell`), and a text of this kind is spelled as it is (`spell_eq_self_iff`). So a piece
of a key with commas is its only piece (`pieces_of_mem_pieces`).
-/

namespace AtomicRules.Key

open Text

/-! ## Hyphens -/

theorem hyphenate_cons_of_isUpper {c : Char} (h : c.isUpper) (rest : List Char) :
    hyphenate (c :: rest) = '-' :: c :: hyphenate rest := by
  simp [hyphenate, h]

theorem hyphenate_cons {c : Char} (h : c.isUpper = false) (rest : List Char) :
    hyphenate (c :: rest) = c :: hyphenate rest := by
  simp [hyphenate, h]

/-- A text without capitals gets no hyphens. -/
theorem hyphenate_eq_self {text : List Char} (h : ∀ c ∈ text, c.isUpper = false) :
    hyphenate text = text := by
  induction text with
  | nil => rfl
  | cons c rest ih =>
      rw [hyphenate_cons (h c (by simp)), ih fun d hd => h d (by simp [hd])]

/-- No characters but hyphens are added. -/
theorem mem_of_mem_hyphenate {text : List Char} {c : Char} (h : c ∈ hyphenate text) :
    c = '-' ∨ c ∈ text := by
  obtain ⟨d, hd, hc⟩ := List.mem_flatMap.1 h
  split at hc
  · rcases List.mem_pair.1 hc with hhyphen | hsame
    · exact .inl hhyphen
    · exact .inr (hsame ▸ hd)
  · exact .inr (List.mem_singleton.1 hc ▸ hd)

/-- A hyphenated text begins with a hyphen, or as the text, and then with no capital. -/
theorem head?_hyphenate {text : List Char} {c : Char} (h : (hyphenate text).head? = some c) :
    c = '-' ∨ (c.isUpper = false ∧ text.head? = some c) := by
  cases text with
  | nil => contradiction
  | cons d rest =>
      cases hd : d.isUpper with
      | true =>
          rw [hyphenate_cons_of_isUpper hd] at h
          exact .inl (Option.some.inj h).symm
      | false =>
          rw [hyphenate_cons hd] at h
          cases h
          exact .inr ⟨hd, rfl⟩

/-- A hyphenated text ends as the text. -/
theorem getLast?_hyphenate (text : List Char) : (hyphenate text).getLast? = text.getLast? := by
  induction text using List.reverseRecOn with
  | nil => rfl
  | append_singleton front c ih =>
      rw [hyphenate, List.flatMap_append]
      cases hc : c.isUpper <;> simp [hc]

/-! ## What a spelling looks like -/

/-- No white space is at either end, no capital of ASCII anywhere, the vendor letters are not at the
beginning, and lower casing changes nothing. -/
structure IsSpelled (text : List Char) : Prop where
  head : ∀ c ∈ text.head?, isWhiteSpace c = false
  last : ∀ c ∈ text.getLast?, isWhiteSpace c = false
  capitals : ∀ c ∈ text, c.isUpper = false
  vendor : ¬ ['m', 's'] <+: text
  lowered : lower text = text

/-- A text of this kind is spelled as it is. -/
theorem IsSpelled.spell_eq {text : List Char} (h : IsSpelled text) : spell text = text := by
  have hvendor : ['m', 's'].isPrefixOf text = false := by
    rw [Bool.eq_false_iff, ne_eq, List.isPrefixOf_iff_prefix]
    exact h.vendor
  simp [spell, trim_eq_self h.head h.last, hvendor, hyphenate_eq_self h.capitals, h.lowered]

/-- Of the capitals only `M` and `S` are lowered to the vendor letters. -/
theorem eq_or_isUpper_of_lowersTo {c d : Char} (h : LowersTo c d) (hd : d = 'm' ∨ d = 's') :
    d = c ∨ c.isUpper := by
  have hascii : d.toNat < 0x80 := by
    rcases hd with rfl | rfl <;> decide
  rcases h.ascii hascii with hsame | ⟨-, hupper | rfl | rfl⟩
  · exact .inl hsame
  · exact .inr hupper
  · rcases hd with hd | hd <;> contradiction
  · rcases hd with hd | hd <;> contradiction

/-- Where a hyphenated text is lowered to one with a vendor letter in front, the letter stood in
front before. -/
theorem eq_cons_of_head?_lowerAfter {before text : List Char} {d : Char} (hd : d = 'm' ∨ d = 's')
    (h : (lowerAfter before (hyphenate text)).head? = some d) :
    ∃ rest, text = d :: rest ∧
      lowerAfter before (hyphenate text) = d :: lowerAfter (d :: before) (hyphenate rest) := by
  obtain ⟨c, hc, hlowers⟩ := exists_of_head?_lowerAfter h
  have hfirst : c.isUpper = false ∧ text.head? = some c := by
    rcases head?_hyphenate hc with rfl | hfirst
    · rcases eq_or_isUpper_of_lowersTo hlowers hd with rfl | hupper
      · rcases hd with hd | hd <;> contradiction
      · contradiction
    · exact hfirst
  obtain rfl : d = c := by
    rcases eq_or_isUpper_of_lowersTo hlowers hd with hsame | hupper
    · exact hsame
    · rw [hfirst.1] at hupper
      contradiction
  obtain ⟨rest, rfl⟩ := List.head?_eq_some_iff.1 hfirst.2
  obtain ⟨hsigma, hown⟩ := hlowers.settled
  refine ⟨rest, rfl, ?_⟩
  rw [hyphenate_cons hfirst.1, lowerAfter_cons_of_lowerChar hsigma hown]

/-- What is lowered when a key is spelled: the trimmed key with its hyphens, and one more hyphen
where it begins with the vendor letters. -/
theorem spell_cases (key : List Char) :
    (['m', 's'] <+: trim key ∧ spell key = lower ('-' :: hyphenate (trim key))) ∨
      (¬ ['m', 's'] <+: trim key ∧ spell key = lower (hyphenate (trim key))) := by
  unfold spell
  dsimp only
  by_cases hvendor : ['m', 's'] <+: trim key
  · rw [if_pos (List.isPrefixOf_iff_prefix.2 hvendor)]
    exact .inl ⟨hvendor, rfl⟩
  · rw [if_neg (fun hprefix => hvendor (List.isPrefixOf_iff_prefix.1 hprefix))]
    exact .inr ⟨hvendor, rfl⟩

/-- A spelling begins with a lower case of a hyphen or of the first character of the trimmed
key. -/
theorem exists_of_head?_spell {key : List Char} {d : Char} (h : (spell key).head? = some d) :
    ∃ c, (c = '-' ∨ (trim key).head? = some c) ∧ LowersTo c d := by
  rcases spell_cases key with ⟨-, hspell⟩ | ⟨-, hspell⟩
  · rw [hspell] at h
    obtain ⟨c, hc, hlowers⟩ := exists_of_head?_lowerAfter h
    exact ⟨c, .inl (Option.some.inj hc).symm, hlowers⟩
  · rw [hspell] at h
    obtain ⟨c, hc, hlowers⟩ := exists_of_head?_lowerAfter h
    exact ⟨c, (head?_hyphenate hc).imp_right And.right, hlowers⟩

/-- A spelling ends in a lower case of the last character of the trimmed key. -/
theorem exists_of_getLast?_spell {key : List Char} {d : Char} (h : (spell key).getLast? = some d) :
    ∃ c, (trim key).getLast? = some c ∧ LowersTo c d := by
  rcases spell_cases key with ⟨hvendor, hspell⟩ | ⟨-, hspell⟩
  · rw [hspell] at h
    obtain ⟨c, hc, hlowers⟩ := exists_of_getLast?_lowerAfter h
    refine ⟨c, ?_, hlowers⟩
    -- the letters behind the hyphen are there
    have hne : hyphenate (trim key) ≠ [] := by
      obtain ⟨rest, hrest⟩ := hvendor
      rw [← hrest]
      simp [hyphenate]
    rw [← getLast?_hyphenate, ← hc, ← List.singleton_append, List.getLast?_append_of_ne_nil _ hne]
  · rw [hspell] at h
    obtain ⟨c, hc, hlowers⟩ := exists_of_getLast?_lowerAfter h
    exact ⟨c, getLast?_hyphenate _ ▸ hc, hlowers⟩

/-- Every character of a spelling is a lower case of a hyphen or of a character of the trimmed
key. -/
theorem exists_of_mem_spell {key : List Char} {d : Char} (h : d ∈ spell key) :
    ∃ c, (c = '-' ∨ c ∈ trim key) ∧ LowersTo c d := by
  rcases spell_cases key with ⟨-, hspell⟩ | ⟨-, hspell⟩
  · rw [hspell] at h
    obtain ⟨c, hc, hlowers⟩ := exists_of_mem_lowerAfter h
    rcases List.mem_cons.1 hc with hhyphen | hc
    · exact ⟨c, .inl hhyphen, hlowers⟩
    · exact ⟨c, mem_of_mem_hyphenate hc, hlowers⟩
  · rw [hspell] at h
    obtain ⟨c, hc, hlowers⟩ := exists_of_mem_lowerAfter h
    exact ⟨c, mem_of_mem_hyphenate hc, hlowers⟩

/-- A spelling does not begin with the vendor letters. -/
theorem not_vendor_spell (key : List Char) : ¬ ['m', 's'] <+: spell key := by
  rintro ⟨rest, hrest⟩
  rcases spell_cases key with ⟨-, hspell⟩ | ⟨hvendor, hspell⟩
  · -- the hyphen is its own lower case
    have hhead : (lower ('-' :: hyphenate (trim key))).head? = some 'm' := by
      rw [← hspell, ← hrest]
      rfl
    obtain ⟨c, hc, hlowers⟩ := exists_of_head?_lowerAfter hhead
    obtain rfl := Option.some.inj hc
    rcases eq_or_isUpper_of_lowersTo hlowers (.inl rfl) with hsame | hupper <;> contradiction
  · rw [hspell, lower] at hrest
    obtain ⟨first, hfirst, hlower⟩ :=
      eq_cons_of_head?_lowerAfter (.inl rfl) (by rw [← hrest]; rfl)
    rw [hlower] at hrest
    obtain ⟨second, hsecond, -⟩ :=
      eq_cons_of_head?_lowerAfter (.inr rfl) (by rw [← (List.cons.inj hrest).2]; rfl)
    rw [hfirst, hsecond] at hvendor
    exact hvendor (List.prefix_append ['m', 's'] second)

/-- The CSS spelling of any key is spelled. -/
theorem isSpelled_spell (key : List Char) : IsSpelled (spell key) where
  head d hd := by
    obtain ⟨c, hc, hlowers⟩ := exists_of_head?_spell hd
    rw [Bool.eq_false_iff]
    intro hblank
    obtain rfl := hlowers.eq_of_isWhiteSpace hblank
    rcases hc with rfl | hc
    · contradiction
    · rw [isWhiteSpace_head_trim hc] at hblank
      contradiction
  last d hd := by
    obtain ⟨c, hc, hlowers⟩ := exists_of_getLast?_spell hd
    rw [Bool.eq_false_iff]
    intro hblank
    obtain rfl := hlowers.eq_of_isWhiteSpace hblank
    rw [isWhiteSpace_getLast_trim hc] at hblank
    contradiction
  capitals d hd := by
    obtain ⟨c, -, hlowers⟩ := exists_of_mem_spell hd
    exact hlowers.isUpper_eq_false
  vendor := not_vendor_spell key
  lowered := by
    rcases spell_cases key with ⟨-, hspell⟩ | ⟨-, hspell⟩ <;> rw [hspell, lower_lower]

/-- A text is its own spelling exactly when it is spelled. -/
theorem spell_eq_self_iff {text : List Char} : spell text = text ↔ IsSpelled text :=
  ⟨fun h => h ▸ isSpelled_spell text, IsSpelled.spell_eq⟩

/-! ## Pieces -/

/-- The parts between the places of a character do not hold it. -/
theorem notMem_of_mem_splitOn {mark : Char} {key part : List Char} (h : part ∈ key.splitOn mark) :
    mark ∉ part := by
  induction key generalizing part with
  | nil =>
      rw [List.splitOn_nil, List.mem_singleton] at h
      rw [h]
      exact List.not_mem_nil
  | cons c rest ih =>
      rw [List.splitOn_cons_eq_if_modifyHead] at h
      split at h
      · rcases List.mem_cons.1 h with rfl | hrest
        · exact List.not_mem_nil
        · exact ih hrest
      · next hc =>
          -- the character joins the first part of the rest
          cases hsplit : rest.splitOn mark with
          | nil => exact absurd hsplit (List.splitOn_ne_nil _ _)
          | cons first others =>
              rw [hsplit, List.modifyHead_cons] at h
              rcases List.mem_cons.1 h with rfl | hothers
              · rw [List.mem_cons, not_or]
                refine ⟨fun hmark => hc (beq_iff_eq.2 hmark.symm), ih ?_⟩
                rw [hsplit]
                exact List.mem_cons_self
              · apply ih
                rw [hsplit]
                exact List.mem_cons_of_mem first hothers

/-- Spelling adds no commas. -/
theorem comma_notMem_spell {key : List Char} (h : ',' ∉ key) : ',' ∉ spell key := by
  intro hmem
  obtain ⟨c, hc, hlowers⟩ := exists_of_mem_spell hmem
  have hsame : ',' = c := by
    rcases hlowers.ascii (by decide) with hsame | ⟨hlower, -⟩
    · exact hsame
    · contradiction
  rcases hc with rfl | hc
  · contradiction
  · have hend := trimEnd_prefix (key.dropWhile isWhiteSpace)
    have hkey := (List.dropWhile_suffix _).subset (hend.subset hc)
    exact h (hsame ▸ hkey)

/-- A piece of a key is spelled and holds no comma, so it is its only piece and its own spelling. -/
theorem pieces_of_mem_pieces {key piece : String} (h : piece ∈ pieces key) :
    pieces piece = [piece] ∧ normalize piece = piece ∧ ',' ∉ piece.toList ∧
      (∀ c ∈ piece.toList.head?, isWhiteSpace c = false) ∧
      (∀ c ∈ piece.toList.getLast?, isWhiteSpace c = false) ∧
      (∀ c ∈ piece.toList, c.isUpper = false) ∧ ¬ ['m', 's'] <+: piece.toList := by
  obtain ⟨part, hpart, rfl⟩ := List.mem_map.1 h
  have hspelled := isSpelled_spell part
  have hcomma := comma_notMem_spell (notMem_of_mem_splitOn hpart)
  have hlist : (String.ofList (spell part)).toList = spell part := String.toList_ofList
  have hnormal : normalize (String.ofList (spell part)) = String.ofList (spell part) := by
    rw [normalize, hlist, hspelled.spell_eq]
  refine ⟨?_, hnormal, ?_, ?_, ?_, ?_, ?_⟩
  · rw [pieces_eq_singleton (by rwa [hlist]), hnormal]
  · rwa [hlist]
  · rw [hlist]
    exact hspelled.head
  · rw [hlist]
    exact hspelled.last
  · rw [hlist]
    exact hspelled.capitals
  · rw [hlist]
    exact hspelled.vendor

/-- A final sigma after a dotted capital I, with white space of other kinds around. -/
theorem pieces_of_mem_pieces_sigma :
    let piece := "-ai\u0307ς"
    piece ∈ pieces "msFlex,\u3000Aİ\u03a3\u2003" ∧ pieces piece = [piece] ∧
      normalize piece = piece ∧ ',' ∉ piece.toList ∧
      (∀ c ∈ piece.toList.head?, isWhiteSpace c = false) ∧
      (∀ c ∈ piece.toList.getLast?, isWhiteSpace c = false) ∧
      (∀ c ∈ piece.toList, c.isUpper = false) ∧ ¬ ['m', 's'] <+: piece.toList := by
  intro piece
  have hpiece : piece ∈ pieces "msFlex,\u3000Aİ\u03a3\u2003" := by decide +kernel
  exact ⟨hpiece, pieces_of_mem_pieces hpiece⟩

end AtomicRules.Key

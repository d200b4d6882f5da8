import AtomicRules.Proofs.Json.Numbers

/-!
# Reading strings

The readers of escapes, of characters and of whole strings find exactly what the grammar spells
(`string_sound`, `string_complete`). A string ends at its closing quote, whatever follows.
-/

namespace AtomicRules.Json

namespace Grammar

/-- No character of a string begins with a quote. -/
theorem Character.avoids {c : Char} {text : List Char} (h : Character c text) (rest : List Char) :
    Avoids (· == '"') (text ++ rest) := by
  intro d hd
  cases h with
  | raw hcontrol hquote hbackslash => cases hd; simpa using hquote
  | letter hletter => cases hd; rfl
  | unit hunit => cases hd; rfl
  | pair => cases hd; rfl

end Grammar

namespace Reader

open Grammar

/-! ## Characters of a string -/

/-- A hexadecimal digit is an early character. -/
theorem toNat_lt_of_hexDigit? {c : Char} {digit : Nat} (h : hexDigit? c = some digit) :
    c.toNat < 103 := by
  unfold hexDigit? at h
  split at h
  · next hc =>
      simp only [Bool.or_eq_true, Bool.and_eq_true, decide_eq_true_eq, Char.isDigit_iff_toNat,
        Char.le_def, UInt32.le_iff_toNat_le] at hc
      have hnine : '9'.toNat = 57 := rfl
      have hsmall : 'f'.val.toNat = 102 := rfl
      have hcapital : 'F'.val.toNat = 70 := rfl
      have hval : c.toNat = c.val.toNat := rfl
      omega
  · contradiction

/-- The hexadecimal digits are the characters that have a value as such. -/
theorem hexDigit?_eq_some_iff {c : Char} {digit : Nat} :
    hexDigit? c = some digit ↔ HexDigit digit c := by
  constructor
  · intro h
    have hall : ∀ n < 103, ∀ digit ∈ hexDigit? (Char.ofNat n), digit < 16 ∧
        (Char.ofNat n = Text.Radix.digitChar digit ∨
          Char.ofNat n = (Text.Radix.digitChar digit).toUpper) := by decide
    have hchar := hall c.toNat (toNat_lt_of_hexDigit? h)
    rw [Char.ofNat_toNat] at hchar
    exact hchar digit h
  · rintro ⟨hlt, h⟩
    have hall : ∀ digit < 16, hexDigit? (Text.Radix.digitChar digit) = some digit ∧
        hexDigit? (Text.Radix.digitChar digit).toUpper = some digit := by decide
    rcases h with rfl | rfl
    · exact (hall digit hlt).1
    · exact (hall digit hlt).2

/-- A code unit takes four characters, and each of them has to be a digit. -/
theorem run_codeUnit_cons (a b c d : Char) (rest : List Char) :
    run codeUnit (a :: b :: c :: d :: rest) =
      ([a, b, c, d].mapM hexDigit?).map fun digits => (Text.Radix.value 16 digits, rest) := by
  simp only [run, codeUnit]
  cases [a, b, c, d].mapM hexDigit? <;> rfl

/-- What is found as a code unit is spelled by its four digits. -/
theorem codeUnit_sound : Sound (run codeUnit) CodeUnit := by
  intro text value rest h
  match text with
  | a :: b :: c :: d :: text =>
      simp only [run_codeUnit_cons, List.mapM_cons, List.mapM_nil, Option.map_eq_some_iff,
        Option.bind_eq_bind, Option.bind_eq_some_iff, Option.pure_def, Option.some.injEq,
        hexDigit?_eq_some_iff] at h
      obtain ⟨_, ⟨d₁, h₁, _, ⟨d₂, h₂, _, ⟨d₃, h₃, _, ⟨d₄, h₄, _, rfl, rfl⟩, rfl⟩, rfl⟩, rfl⟩,
        heq⟩ := h
      cases heq
      exact ⟨[a, b, c, d], rfl, .mk h₁ h₂ h₃ h₄⟩
  | [] | [_] | [_, _] | [_, _, _] => contradiction

/-- Four digits are found as a code unit, whatever follows. -/
theorem codeUnit_complete : Complete (run codeUnit) CodeUnit fun _ => True := by
  intro value front rest hunit _
  cases hunit with
  | mk h₁ h₂ h₃ h₄ =>
      have hdigits := And.intro (hexDigit?_eq_some_iff.2 h₁) (And.intro (hexDigit?_eq_some_iff.2 h₂)
        (And.intro (hexDigit?_eq_some_iff.2 h₃) (hexDigit?_eq_some_iff.2 h₄)))
      simp [run_codeUnit_cons, hdigits]

theorem isLeading_iff {unit : Nat} : isLeading unit = true ↔ 0xd800 ≤ unit ∧ unit < 0xdc00 := by
  simp [isLeading]

theorem isTrailing_iff {unit : Nat} : isTrailing unit = true ↔ 0xdc00 ≤ unit ∧ unit < 0xe000 := by
  simp [isTrailing]

/-- A code unit is the character itself, unless it leads a pair. Then another escape has to follow
with the other half, and half a pair alone is no character. -/
theorem run_numericEscape (text : List Char) :
    run numericEscape text = (run codeUnit text).bind fun first =>
      if isLeading first.1 then
        match first.2 with
        | '\\' :: 'u' :: more => (run codeUnit more).bind fun second =>
            if isTrailing second.1 then some (ofPair first.1 second.1, second.2) else none
        | _ => none
      else if isTrailing first.1 then none else some (Char.ofNat first.1, first.2) := by
  unfold run numericEscape
  cases codeUnit text with
  | none => rfl
  | some first =>
      obtain ⟨unit, rest, shorter⟩ := first
      by_cases hleading : isLeading unit
      · simp only [hleading, if_true, Option.bind_eq_bind, Option.bind_some, Option.map_some]
        split
        · next leading more hmore heq =>
            cases heq
            cases hsecond : codeUnit more with
            | none => simp [hsecond]
            | some second => by_cases h : isTrailing second.value <;> simp [hsecond, h]
        · next h =>
            split
            · next more => exact absurd rfl (h _ more _)
            · rfl
      · by_cases htrailing : isTrailing unit <;> simp [hleading, htrailing, Found.map]

/-- No character is half of a pair. -/
theorem not_surrogate (c : Char) : isLeading c.toNat = false ∧ isTrailing c.toNat = false := by
  have hvalid : c.toNat < 0xd800 ∨ 0xdfff < c.toNat ∧ c.toNat < 0x110000 := c.valid
  simp only [isLeading, isTrailing, Bool.and_eq_false_iff, decide_eq_false_iff_not]
  omega

/-- A code point that is not half of a pair is the one of its character. -/
theorem toNat_ofNat {unit : Nat} (h : unit < 0xd800 ∨ 0xdfff < unit ∧ unit < 0x110000) :
    (Char.ofNat unit).toNat = unit := by
  rw [Char.ofNat, dif_pos (show unit.isValidChar from h)]
  rfl

/-- A pair stands for a code point above those of single units. -/
theorem toNat_ofPair {leading trailing : Nat} (hleading : isLeading leading)
    (htrailing : isTrailing trailing) : (ofPair leading trailing).toNat =
      0x10000 + (leading - 0xd800) * 0x400 + (trailing - 0xdc00) := by
  rw [isLeading_iff] at hleading
  rw [isTrailing_iff] at htrailing
  exact toNat_ofNat (by omega)

/-- What stands after the letter of a numeric escape. -/
inductive Numeric : Char → List Char → Prop
  | unit {c : Char} {text : List Char} (hunit : CodeUnit c.toNat text) : Numeric c text
  | pair {c : Char} {leading trailing : Nat} {front back : List Char}
      (hfront : CodeUnit leading front) (hleading : isLeading leading)
      (hback : CodeUnit trailing back) (htrailing : isTrailing trailing)
      (hpair : c.toNat = 0x10000 + (leading - 0xd800) * 0x400 + (trailing - 0xdc00)) :
      Numeric c (front ++ '\\' :: 'u' :: back)

/-- A character that is found is that of the unit or of the pair in front. -/
theorem numericEscape_sound : Sound (run numericEscape) Numeric := by
  intro text value rest h
  rw [run_numericEscape, Option.bind_eq_some_iff] at h
  obtain ⟨⟨unit, afterUnit⟩, hunit, h⟩ := h
  obtain ⟨front, rfl, hfront⟩ := codeUnit_sound _ _ _ hunit
  by_cases hleading : isLeading unit
  · simp only [hleading, if_true] at h
    split at h
    · next more =>
        rw [Option.bind_eq_some_iff] at h
        obtain ⟨⟨trailing, afterTrailing⟩, hsecond, h⟩ := h
        obtain ⟨back, rfl, hback⟩ := codeUnit_sound _ _ _ hsecond
        split at h
        · next htrailing =>
            obtain ⟨rfl, rfl⟩ := Prod.mk.inj (Option.some.inj h)
            exact ⟨front ++ '\\' :: 'u' :: back, by simp,
              .pair hfront hleading hback htrailing (toNat_ofPair hleading htrailing)⟩
        · contradiction
    · contradiction
  · rw [if_neg hleading] at h
    split at h
    · contradiction
    · next htrailing =>
        cases h
        have hlt := hfront.lt
        rw [isLeading_iff] at hleading
        rw [isTrailing_iff] at htrailing
        refine ⟨front, rfl, .unit ?_⟩
        rwa [toNat_ofNat (by omega)]

/-- Every unit and every pair that is a character is found as this character. -/
theorem numericEscape_complete : Complete (run numericEscape) Numeric fun _ => True := by
  intro value front rest hnumeric _
  rw [run_numericEscape]
  cases hnumeric with
  | unit hunit =>
      rw [codeUnit_complete _ _ _ hunit trivial]
      simp [not_surrogate value]
  | pair hfront hleading hback htrailing hpair =>
      rw [List.append_assoc, codeUnit_complete _ _ _ hfront trivial, Option.bind_some,
        if_pos hleading]
      simp only [List.cons_append]
      rw [codeUnit_complete _ _ _ hback trivial, Option.bind_some, if_pos htrailing]
      rw [ofPair, ← hpair, Char.ofNat_toNat]

/-- The letters of escapes stand for their characters. -/
theorem ofEscapeLetter?_eq_some_iff {c letter : Char} :
    ofEscapeLetter? letter = some c ↔ (c, letter) ∈ escapes := by
  constructor
  · intro h
    unfold ofEscapeLetter? at h
    split at h <;> first | contradiction | (cases h; simp [escapes])
  · simp only [escapes, List.mem_cons, Prod.mk.injEq, List.not_mem_nil, or_false]
    rintro (⟨rfl, rfl⟩ | ⟨rfl, rfl⟩ | ⟨rfl, rfl⟩ | ⟨rfl, rfl⟩ | ⟨rfl, rfl⟩ | ⟨rfl, rfl⟩ |
      ⟨rfl, rfl⟩ | ⟨rfl, rfl⟩) <;> rfl

/-- After `u` the code point comes as a number. -/
theorem run_escape_unit (text : List Char) :
    run escape ('u' :: text) = run numericEscape text := by
  simp [run, escape, Found.widen, Function.comp_def]

/-- Any other letter of an escape is looked up. -/
theorem run_escape_letter {letter : Char} (h : letter ≠ 'u') (text : List Char) :
    run escape (letter :: text) = (ofEscapeLetter? letter).map fun c => (c, text) := by
  simp [run, escape, Function.comp_def]

/-- A backslash begins an escape. -/
theorem run_stringChar_backslash (text : List Char) :
    run stringChar ('\\' :: text) = run escape text := by
  simp [run, stringChar, Found.widen, Function.comp_def]

/-- Any other character stands for itself, if it may stand in a string at all. -/
theorem run_stringChar_raw {c : Char} (h : c ≠ '\\') (text : List Char) :
    run stringChar (c :: text) =
      if c.toNat < 0x20 || c == '"' then none else some (c, text) := by
  simp only [run, stringChar]
  split <;> rfl

/-- A character that is found is spelled by the characters that are taken. -/
theorem stringChar_sound : Sound (run stringChar) Character := by
  intro text value rest h
  cases text with
  | nil => contradiction
  | cons c text =>
      by_cases hbackslash : c = '\\'
      · subst hbackslash
        rw [run_stringChar_backslash] at h
        cases text with
        | nil => contradiction
        | cons letter text =>
            by_cases hunit : letter = 'u'
            · subst hunit
              rw [run_escape_unit] at h
              obtain ⟨front, rfl, hnumeric⟩ := numericEscape_sound _ _ _ h
              refine ⟨'\\' :: 'u' :: front, rfl, ?_⟩
              cases hnumeric with
              | unit hunit => exact .unit hunit
              | pair hfront hleading hback htrailing hpair =>
                  exact .pair hfront (isLeading_iff.1 hleading) hback (isTrailing_iff.1 htrailing)
                    hpair
            · rw [run_escape_letter hunit, Option.map_eq_some_iff] at h
              obtain ⟨found, hletter, heq⟩ := h
              cases heq
              exact ⟨['\\', letter], rfl, .letter (ofEscapeLetter?_eq_some_iff.1 hletter)⟩
      · rw [run_stringChar_raw hbackslash] at h
        split at h
        · contradiction
        · next hraw =>
            cases h
            simp only [Bool.or_eq_true, decide_eq_true_eq, beq_iff_eq, not_or, not_lt] at hraw
            exact ⟨[value], rfl, .raw hraw.1 hraw.2 hbackslash⟩

/-- Every spelling of a character is found, whatever follows. -/
theorem stringChar_complete : Complete (run stringChar) Character fun _ => True := by
  intro value front rest hcharacter _
  cases hcharacter with
  | raw hcontrol hquote hbackslash =>
      have hraw : ¬(value.toNat < 0x20 || value == '"') = true := by simp [hcontrol, hquote]
      rw [List.cons_append, run_stringChar_raw hbackslash, if_neg hraw]
      rfl
  | @letter letter hletter =>
      have hunit : letter ≠ 'u' := by
        rintro rfl
        simp [escapes] at hletter
      rw [List.cons_append, List.cons_append, run_stringChar_backslash, run_escape_letter hunit,
        ofEscapeLetter?_eq_some_iff.2 hletter]
      rfl
  | unit hunit =>
      exact (run_stringChar_backslash _).trans ((run_escape_unit _).trans
        (numericEscape_complete _ _ _ (.unit hunit) trivial))
  | pair hfront hleading hback htrailing hpair =>
      exact (run_stringChar_backslash _).trans ((run_escape_unit _).trans
        (numericEscape_complete _ _ _ (.pair hfront (isLeading_iff.2 hleading) hback
          (isTrailing_iff.2 htrailing) hpair) trivial))

/-! ## Strings -/

/-- A quote ends the string. -/
theorem run_stringTail_quote (rest : List Char) :
    run stringTail ('"' :: rest) = some ([], rest) := by
  rw [run, stringTail]
  rfl

/-- Where no quote comes next, a character does, and the string goes on behind it. -/
theorem run_stringTail {text : List Char} (h : Avoids (· == '"') text) :
    run stringTail text = (run stringChar text).bind fun first =>
      (run stringTail first.2).map fun others => (first.1 :: others.1, others.2) := by
  have hquote : ∀ rest, text = '"' :: rest → False := by
    rintro rest rfl
    simpa using h '"' rfl
  rw [run, stringTail.eq_2 _ hquote]
  cases hfirst : stringChar text with
  | none => simp [run, hfirst]
  | some first =>
      cases hothers : stringTail first.rest with
      | none => simp [run, hfirst, hothers]
      | some others => simp [run, hfirst, hothers]

/-- The characters of a string with the quote after them. -/
def Tail (characters text : List Char) : Prop :=
  ∃ front, Characters characters front ∧ text = front ++ ['"']

/-- The characters that are found are spelled up to the first quote that is not escaped. -/
theorem stringTail_sound : Sound (run stringTail) Tail := by
  intro text
  induction hlength : text.length using Nat.strongRecOn generalizing text with
  | ind length ih =>
      intro value rest h
      by_cases hquote : Avoids (· == '"') text
      · rw [run_stringTail hquote, Option.bind_eq_some_iff] at h
        obtain ⟨⟨c, afterFirst⟩, hfirst, h⟩ := h
        rw [Option.map_eq_some_iff] at h
        obtain ⟨⟨others, afterOthers⟩, hothers, heq⟩ := h
        cases heq
        obtain ⟨front, rfl, hcharacter⟩ := stringChar_sound _ _ _ hfirst
        have hshorter := hlength ▸ length_lt_of_run hfirst
        obtain ⟨_, rfl, back, hcharacters, rfl⟩ := ih _ hshorter _ rfl _ _ hothers
        exact ⟨front ++ (back ++ ['"']), by simp, front ++ back, .cons hcharacter hcharacters,
          by simp⟩
      · obtain ⟨c, more, hc, rfl⟩ := not_avoids_iff.1 hquote
        cases beq_iff_eq.1 hc
        rw [run_stringTail_quote] at h
        cases h
        exact ⟨['"'], rfl, [], .nil, rfl⟩

/-- All characters up to the closing quote are found, whatever follows. -/
theorem stringTail_complete : Complete (run stringTail) Tail fun _ => True := by
  rintro value text rest ⟨front, hcharacters, rfl⟩ _
  induction hcharacters with
  | nil => exact run_stringTail_quote rest
  | @cons c others front back hfirst hothers ih =>
      rw [List.append_assoc, List.append_assoc, run_stringTail (hfirst.avoids _),
        stringChar_complete _ _ _ hfirst trivial, Option.bind_some, ← List.append_assoc, ih]
      rfl

/-- A quote begins a string. -/
theorem run_string_quote (text : List Char) :
    run string ('"' :: text) =
      (run stringTail text).map fun found => (String.ofList found.1, found.2) := by
  simp [run, string, Found.widen, Found.map, Function.comp_def]

/-- Where no quote comes first there is no string. -/
theorem run_string {text : List Char} (h : Avoids (· == '"') text) : run string text = none := by
  unfold run string
  split
  · next rest => simpa using h '"' rfl
  · rfl

/-- A string that is found is spelled by the text from its opening to its closing quote. -/
theorem string_sound : Sound (run string) Quoted := by
  intro text value rest h
  by_cases hquote : Avoids (· == '"') text
  · rw [run_string hquote] at h
    contradiction
  · obtain ⟨c, more, hc, rfl⟩ := not_avoids_iff.1 hquote
    cases beq_iff_eq.1 hc
    rw [run_string_quote, Option.map_eq_some_iff] at h
    obtain ⟨⟨characters, afterTail⟩, htail, heq⟩ := h
    cases heq
    obtain ⟨_, rfl, front, hcharacters, rfl⟩ := stringTail_sound _ _ _ htail
    exact ⟨'"' :: (front ++ ['"']), rfl, .mk (by rwa [String.toList_ofList])⟩

/-- Every spelling of a string is found, whatever follows. -/
theorem string_complete : Complete (run string) Quoted fun _ => True := by
  intro value front rest hquoted _
  cases hquoted with
  | mk hcharacters =>
      rw [List.cons_append, run_string_quote,
        stringTail_complete _ _ _ ⟨_, hcharacters, rfl⟩ trivial, Option.map_some,
        String.ofList_toList]

end Reader

end AtomicRules.Json

import AtomicRules.Json.Reader
import AtomicRules.Proofs.Json.Grammar
import Mathlib.Data.List.TakeWhile

/-!
# Reading numbers

Readers against the parts of the grammar that they read. A reader is sound when whatever it finds
is spelled by the text that it takes, and complete when it finds whatever is spelled, provided that
what follows cannot be taken for more of it. Both are shown here for the blanks, the digits and the
parts of a number, up to `numeral_sound` and `numeral_complete`.
-/

namespace AtomicRules.Json

namespace Grammar

/-! ## How parts of a document begin -/

/-- The text does not begin with a character of a kind. -/
def Avoids (kind : Char → Bool) (text : List Char) : Prop :=
  ∀ c ∈ text.head?, kind c = false

/-- A text that avoids a kind of characters avoids fewer as well. -/
theorem Avoids.mono {kind wider : Char → Bool} {text : List Char} (h : Avoids wider text)
    (hkind : ∀ c, kind c → wider c) : Avoids kind text := fun c hc =>
  Bool.eq_false_iff.2 fun hyes => Bool.eq_false_iff.1 (h c hc) (hkind c hyes)

/-- A text that begins with a character of the kind. -/
theorem not_avoids_iff {kind : Char → Bool} {text : List Char} :
    ¬Avoids kind text ↔ ∃ c more, kind c = true ∧ text = c :: more := by
  cases text with
  | nil => simp [Avoids]
  | cons c text => simp [Avoids]

/-- Nothing is dropped from a text that does not begin with the kind to drop. -/
theorem Avoids.dropWhile_eq {kind : Char → Bool} {text : List Char} (h : Avoids kind text) :
    text.dropWhile kind = text := by
  cases text with
  | nil => rfl
  | cons c text => exact List.dropWhile_cons_of_neg (by simp [h c rfl])

/-- Nothing is taken from a text that does not begin with the kind to take. -/
theorem Avoids.takeWhile_eq {kind : Char → Bool} {text : List Char} (h : Avoids kind text) :
    text.takeWhile kind = [] := by
  cases text with
  | nil => rfl
  | cons c text => exact List.takeWhile_cons_of_neg (by simp [h c rfl])

/-- The digit of a character is below ten, and the character is the one of this digit. -/
theorem digitChar_digitValue_of_isDigit {c : Char} (h : c.isDigit) :
    Text.Radix.digitValue c < 10 ∧ Text.Radix.digitChar (Text.Radix.digitValue c) = c := by
  have hlt : c.toNat < 58 := by
    rw [Char.isDigit_iff_toNat] at h
    have hnine : '9'.toNat = 57 := rfl
    omega
  have hall : ∀ n < 58, (Char.ofNat n).isDigit → Text.Radix.digitValue (Char.ofNat n) < 10 ∧
      Text.Radix.digitChar (Text.Radix.digitValue (Char.ofNat n)) = Char.ofNat n := by decide
  have hchar := hall c.toNat hlt
  rw [Char.ofNat_toNat] at hchar
  exact hchar h

/-- The characters of decimal digits are digits. -/
theorem isDigit_digitChar {digit : Nat} (h : digit < 10) : (Text.Radix.digitChar digit).isDigit :=
  (by decide : ∀ d < 10, (Text.Radix.digitChar d).isDigit) digit h

/-- Characters that are digits are the digits of a run. -/
theorem digits_map_digitValue {text : List Char} (hne : text ≠ []) (h : ∀ c ∈ text, c.isDigit) :
    Digits (text.map Text.Radix.digitValue) text where
  ne_nil := by simpa using hne
  lt_ten digit hdigit := by
    obtain ⟨c, hc, rfl⟩ := List.mem_map.1 hdigit
    exact (digitChar_digitValue_of_isDigit (h c hc)).1
  text_eq := by
    rw [List.map_map]
    exact ((List.map_congr_left fun c hc =>
      (digitChar_digitValue_of_isDigit (h c hc)).2).trans (List.map_id text)).symm

/-- The characters of a run are digits. -/
theorem Digits.isDigit {digits : List Nat} {text : List Char} (h : Digits digits text) :
    ∀ c ∈ text, c.isDigit := by
  intro c hc
  rw [h.text_eq] at hc
  obtain ⟨digit, hdigit, rfl⟩ := List.mem_map.1 hc
  exact isDigit_digitChar (h.lt_ten digit hdigit)

/-- The digits of a run are the values of its characters. -/
theorem Digits.map_digitValue {digits : List Nat} {text : List Char} (h : Digits digits text) :
    text.map Text.Radix.digitValue = digits := by
  rw [h.text_eq, List.map_map]
  refine (List.map_congr_left fun digit hdigit => ?_).trans (List.map_id digits)
  have hlt := h.lt_ten digit hdigit
  exact Text.Radix.digitValue_digitChar (by omega)

/-- A run begins with the character of its first digit. -/
theorem Digits.exists_cons {digits : List Nat} {text : List Char} (h : Digits digits text) :
    ∃ digit others, digit < 10 ∧ digits = digit :: others ∧
      text = Text.Radix.digitChar digit :: others.map Text.Radix.digitChar := by
  obtain ⟨digit, others, rfl⟩ := List.exists_cons_of_ne_nil h.ne_nil
  exact ⟨digit, others, h.lt_ten digit (by simp), rfl, h.text_eq⟩

/-- A run of digits does not begin with anything that is no digit. -/
theorem Digits.avoids {digits : List Nat} {text : List Char} (h : Digits digits text)
    {kind : Char → Bool} (hkind : ∀ c, c.isDigit → kind c = false) (rest : List Char) :
    Avoids kind (text ++ rest) := by
  intro c hc
  obtain ⟨digit, others, hlt, -, rfl⟩ := h.exists_cons
  cases hc
  exact hkind _ (isDigit_digitChar hlt)

/-- The letters of an exponent. -/
def isExponentLetter (c : Char) : Bool :=
  c == 'e' || c == 'E'

theorem isExponentLetter_iff {c : Char} : isExponentLetter c = true ↔ c = 'e' ∨ c = 'E' := by
  simp [isExponentLetter]

/-- The characters that a number could go on with. -/
def isOfNumber (c : Char) : Bool :=
  c.isDigit || c == '.' || isExponentLetter c

/-- What follows the digits of a fraction does not go on with it. -/
theorem Exponent.avoids {exponent : Int} {text rest : List Char} (h : Exponent exponent text)
    (hrest : Avoids isOfNumber rest) : Avoids (fun c => c.isDigit || c == '.') (text ++ rest) := by
  cases h with
  | absent => exact hrest.mono (by simp +contextual [isOfNumber])
  | present hletter hsigned =>
      intro c hc
      cases hc
      rcases hletter with rfl | rfl <;> rfl

/-- What follows the digits before the point does not go on with them. -/
theorem Fraction.avoids {fraction : List Nat} {text rest : List Char} (h : Fraction fraction text)
    (hrest : Avoids (fun c => c.isDigit || c == '.') rest) :
    Avoids Char.isDigit (text ++ rest) := by
  cases h with
  | absent => exact hrest.mono (by simp +contextual)
  | present hdigits =>
      intro c hc
      cases hc
      rfl

end Grammar

namespace Reader

open Grammar

variable {α : Type}

/-- What a reader finds and leaves. -/
def run (reader : Reader α) (text : List Char) : Option (α × List Char) :=
  (reader text).map fun found => (found.value, found.rest)

/-- What a reader leaves is shorter than what it reads. -/
theorem length_lt_of_run {reader : Reader α} {text : List Char} {found : α × List Char}
    (h : run reader text = some found) : found.2.length < text.length := by
  obtain ⟨found, -, rfl⟩ := Option.map_eq_some_iff.1 h
  exact found.shorter

/-- What a reader finds of a part that may be missing, and what it leaves. -/
def runPart (part : (text : List Char) → Option (α × Remainder text)) (text : List Char) :
    Option (α × List Char) :=
  (part text).map fun found => (found.1, found.2.1)

/-- Whatever is found is spelled by the text up to what is left. -/
def Sound (find : List Char → Option (α × List Char)) (Spells : α → List Char → Prop) : Prop :=
  ∀ (text : List Char) (value : α) (rest : List Char), find text = some (value, rest) →
    ∃ front, text = front ++ rest ∧ Spells value front

/-- Whatever is spelled is found, if an end for it follows. -/
def Complete (find : List Char → Option (α × List Char)) (Spells : α → List Char → Prop)
    (Ends : List Char → Prop) : Prop :=
  ∀ (value : α) (front rest : List Char), Spells value front → Ends rest →
    find (front ++ rest) = some (value, rest)

/-! ## Blanks -/

/-- A blank is one of four characters. -/
theorem isBlank_iff {c : Char} : isBlank c = true ↔ c = ' ' ∨ c = '\t' ∨ c = '\n' ∨ c = '\r' := by
  simp [isBlank, or_assoc]

/-- A text begins with the blanks that are skipped. -/
theorem skipBlanks_sound (text : List Char) :
    ∃ blanks, Blanks blanks ∧ text = blanks ++ (skipBlanks text).1 :=
  ⟨text.takeWhile isBlank, fun _ hc => isBlank_iff.1 (List.mem_takeWhile_imp hc),
    List.takeWhile_append_dropWhile.symm⟩

/-- Blanks are skipped up to the first character that is none. -/
theorem skipBlanks_complete {blanks rest : List Char} (hblanks : Blanks blanks)
    (hrest : Avoids isBlank rest) : (skipBlanks (blanks ++ rest)).1 = rest := by
  show (blanks ++ rest).dropWhile isBlank = rest
  rw [List.dropWhile_append_of_pos fun c hc => isBlank_iff.2 (hblanks c hc), hrest.dropWhile_eq]

/-- A reader after blanks reads what they leave. -/
theorem run_afterBlanks (reader : Reader α) (text : List Char) :
    run (afterBlanks reader) text = run reader (skipBlanks text).1 := by
  simp [run, afterBlanks, Found.widen, Function.comp_def]

/-! ## Digits -/

/-- Digits are taken as far as they go, and one has to be there. -/
theorem run_digits_cons (c : Char) (text : List Char) :
    run digits (c :: text) = if c.isDigit then
      some (((c :: text).takeWhile Char.isDigit).map Text.Radix.digitValue,
        (c :: text).dropWhile Char.isDigit) else none := by
  by_cases h : c.isDigit <;> simp [run, digits, takeDigits, h]

/-- What is found as digits are the digits that the text begins with. -/
theorem digits_sound : Sound (run digits) Digits := by
  intro text value rest h
  cases text with
  | nil => contradiction
  | cons c text =>
      rw [run_digits_cons] at h
      split at h
      · next hc =>
          cases h
          exact ⟨_, List.takeWhile_append_dropWhile.symm,
            digits_map_digitValue (by simp [hc]) fun _ hd => List.mem_takeWhile_imp hd⟩
      · contradiction

/-- Digits are found up to the first character that is none. -/
theorem digits_complete : Complete (run digits) Digits (Avoids Char.isDigit) := by
  intro value front rest hdigits hrest
  cases front with
  | nil => exact absurd hdigits.text_eq (by simpa using hdigits.ne_nil)
  | cons c front =>
      rw [List.cons_append, run_digits_cons, if_pos (hdigits.isDigit c (by simp)),
        ← List.cons_append, List.takeWhile_append_of_pos hdigits.isDigit,
        List.dropWhile_append_of_pos hdigits.isDigit, hrest.takeWhile_eq, hrest.dropWhile_eq,
        List.append_nil, hdigits.map_digitValue]

/-! ## Numbers -/

/-- A zero is a whole part by itself. -/
theorem run_wholePart_zero (rest : List Char) : run wholePart ('0' :: rest) = some ([0], rest) :=
  rfl

/-- Any other digit goes on with all that follow. -/
theorem run_wholePart {text : List Char} (h : Avoids (· == '0') text) :
    run wholePart text = run digits text := by
  unfold run wholePart
  split
  · next rest => simpa using h '0' rfl
  · rfl

/-- No digit but zero is written `0`. -/
theorem digitChar_ne_zero {digit : Nat} (h : digit < 10) (hne : digit ≠ 0) :
    Text.Radix.digitChar digit ≠ '0' :=
  (by decide : ∀ d < 10, d ≠ 0 → Text.Radix.digitChar d ≠ '0') digit h hne

/-- The digits that are found before a point have no needless zero in front. -/
theorem wholePart_sound : Sound (run wholePart) Whole := by
  intro text value rest h
  by_cases hzero : Avoids (· == '0') text
  · rw [run_wholePart hzero] at h
    obtain ⟨front, rfl, hdigits⟩ := digits_sound text value rest h
    refine ⟨front, rfl, hdigits, fun hhead => ?_⟩
    obtain ⟨digit, others, -, rfl, rfl⟩ := hdigits.exists_cons
    cases hhead
    exact absurd (hzero '0' rfl) (by simp)
  · obtain ⟨c, more, hc, rfl⟩ := not_avoids_iff.1 hzero
    cases beq_iff_eq.1 hc
    rw [run_wholePart_zero] at h
    cases h
    exact ⟨['0'], rfl, ⟨by simp, by simp, rfl⟩, fun _ => rfl⟩

/-- Digits without a needless zero in front are found. -/
theorem wholePart_complete : Complete (run wholePart) Whole (Avoids Char.isDigit) := by
  intro value front rest hwhole hrest
  obtain ⟨digit, others, hlt, rfl, rfl⟩ := hwhole.run.exists_cons
  by_cases hzero : digit = 0
  · subst hzero
    cases hwhole.no_leading_zero rfl
    rfl
  · rw [run_wholePart]
    · exact digits_complete _ _ _ hwhole.run hrest
    · intro c hc
      cases hc
      exact beq_eq_false_iff_ne.2 (digitChar_ne_zero hlt hzero)

/-- Behind a point there are digits. -/
theorem runPart_fractionPart_point (text : List Char) :
    runPart fractionPart ('.' :: text) = run digits text := by
  simp [runPart, fractionPart, run, Function.comp_def]

/-- Without a point there is no fraction. -/
theorem runPart_fractionPart {text : List Char} (h : Avoids (· == '.') text) :
    runPart fractionPart text = some ([], text) := by
  unfold runPart fractionPart
  split
  · next after => simpa using h '.' rfl
  · rfl

/-- A fraction that is found is spelled by the point and the digits, or by nothing. -/
theorem fractionPart_sound : Sound (runPart fractionPart) Fraction := by
  intro text value rest h
  by_cases hpoint : Avoids (· == '.') text
  · rw [runPart_fractionPart hpoint] at h
    cases h
    exact ⟨[], rfl, .absent⟩
  · obtain ⟨c, after, hc, rfl⟩ := not_avoids_iff.1 hpoint
    cases beq_iff_eq.1 hc
    rw [runPart_fractionPart_point] at h
    obtain ⟨front, rfl, hdigits⟩ := digits_sound after value rest h
    exact ⟨'.' :: front, rfl, .present hdigits⟩

/-- A fraction is found where no more digits and no point follow. -/
theorem fractionPart_complete : Complete (runPart fractionPart) Fraction
    (Avoids fun c => c.isDigit || c == '.') := by
  intro value front rest hfraction hrest
  cases hfraction with
  | absent => exact runPart_fractionPart (hrest.mono (by simp +contextual))
  | present hdigits =>
      rw [List.cons_append, runPart_fractionPart_point]
      exact digits_complete _ _ _ hdigits (hrest.mono (by simp +contextual))

/-- A minus sign makes the number of the digits negative. -/
theorem run_signed_minus (text : List Char) :
    run signed ('-' :: text) =
      (run digits text).map fun found => (-(Text.Radix.value 10 found.1 : Int), found.2) := by
  simp [run, signed, Function.comp_def]

/-- A plus sign changes nothing. -/
theorem run_signed_plus (text : List Char) :
    run signed ('+' :: text) =
      (run digits text).map fun found => ((Text.Radix.value 10 found.1 : Int), found.2) := by
  simp [run, signed, Function.comp_def]

/-- Without a sign there are digits. -/
theorem run_signed {text : List Char} (h : Avoids (fun c => c == '-' || c == '+') text) :
    run signed text =
      (run digits text).map fun found => ((Text.Radix.value 10 found.1 : Int), found.2) := by
  unfold run signed
  split
  · next rest => simpa using h '-' rfl
  · next rest => simpa using h '+' rfl
  · simp [Found.map, Function.comp_def]

/-- A number that is found is spelled by its sign, if there is one, and its digits. -/
theorem signed_sound : Sound (run signed) Signed := by
  intro text value rest h
  by_cases hsign : Avoids (fun c => c == '-' || c == '+') text
  · rw [run_signed hsign, Option.map_eq_some_iff] at h
    obtain ⟨found, hfound, heq⟩ := h
    cases heq
    obtain ⟨front, rfl, hdigits⟩ := digits_sound _ _ _ hfound
    exact ⟨front, rfl, .unsigned hdigits⟩
  · obtain ⟨c, more, hc, rfl⟩ := not_avoids_iff.1 hsign
    simp only [Bool.or_eq_true, beq_iff_eq] at hc
    rcases hc with rfl | rfl
    · rw [run_signed_minus, Option.map_eq_some_iff] at h
      obtain ⟨found, hfound, heq⟩ := h
      cases heq
      obtain ⟨front, rfl, hdigits⟩ := digits_sound _ _ _ hfound
      exact ⟨'-' :: front, rfl, .minus hdigits⟩
    · rw [run_signed_plus, Option.map_eq_some_iff] at h
      obtain ⟨found, hfound, heq⟩ := h
      cases heq
      obtain ⟨front, rfl, hdigits⟩ := digits_sound _ _ _ hfound
      exact ⟨'+' :: front, rfl, .plus hdigits⟩

/-- A number with or without a sign is found up to the first character that is no digit. -/
theorem signed_complete : Complete (run signed) Signed (Avoids Char.isDigit) := by
  intro value front rest hsigned hrest
  cases hsigned with
  | unsigned hdigits =>
      have hsign : Avoids (fun c => c == '-' || c == '+') (front ++ rest) := by
        refine hdigits.avoids (fun c hc => ?_) rest
        rw [Bool.or_eq_false_iff, beq_eq_false_iff_ne, beq_eq_false_iff_ne]
        constructor <;> rintro rfl <;> contradiction
      rw [run_signed hsign, digits_complete _ _ _ hdigits hrest]
      rfl
  | plus hdigits =>
      rw [List.cons_append, run_signed_plus, digits_complete _ _ _ hdigits hrest]
      rfl
  | minus hdigits =>
      rw [List.cons_append, run_signed_minus, digits_complete _ _ _ hdigits hrest]
      rfl

/-- Behind the letter of an exponent there is a number, perhaps with a sign. -/
theorem runPart_exponentPart_letter {c : Char} (h : isExponentLetter c) (text : List Char) :
    runPart exponentPart (c :: text) = run signed text := by
  unfold isExponentLetter at h
  simp [runPart, exponentPart, run, h, Function.comp_def]

/-- Without the letter the exponent is zero. -/
theorem runPart_exponentPart {text : List Char} (h : Avoids isExponentLetter text) :
    runPart exponentPart text = some (0, text) := by
  cases text with
  | nil => rfl
  | cons c text =>
      have hc := h c rfl
      unfold isExponentLetter at hc
      simp [runPart, exponentPart, hc]

/-- An exponent that is found is spelled by its letter and its number, or by nothing. -/
theorem exponentPart_sound : Sound (runPart exponentPart) Exponent := by
  intro text value rest h
  by_cases hletter : Avoids isExponentLetter text
  · rw [runPart_exponentPart hletter] at h
    cases h
    exact ⟨[], rfl, .absent⟩
  · obtain ⟨c, more, hc, rfl⟩ := not_avoids_iff.1 hletter
    rw [runPart_exponentPart_letter hc] at h
    obtain ⟨front, rfl, hsigned⟩ := signed_sound _ _ _ h
    exact ⟨c :: front, rfl, .present (isExponentLetter_iff.1 hc) hsigned⟩

/-- An exponent is found where nothing follows that a number could go on with. -/
theorem exponentPart_complete : Complete (runPart exponentPart) Exponent (Avoids isOfNumber) := by
  intro value front rest hexponent hrest
  cases hexponent with
  | absent => exact runPart_exponentPart (hrest.mono (by simp +contextual [isOfNumber]))
  | present hletter hsigned =>
      rw [List.cons_append, runPart_exponentPart_letter (isExponentLetter_iff.2 hletter)]
      exact signed_complete _ _ _ hsigned (hrest.mono (by simp +contextual [isOfNumber]))

/-- Whole part, fraction and exponent are read one after the other. -/
theorem run_unsigned (negative : Bool) (text : List Char) :
    run (unsigned negative) text = (run wholePart text).bind fun whole =>
      (runPart fractionPart whole.2).bind fun fraction =>
        (runPart exponentPart fraction.2).map fun exponent =>
          (⟨negative, whole.1, fraction.1, exponent.1⟩, exponent.2) := by
  unfold run runPart unsigned
  cases wholePart text with
  | none => rfl
  | some whole =>
      cases hfraction : fractionPart whole.rest with
      | none => simp [hfraction]
      | some fraction =>
          cases hexponent : exponentPart fraction.2 with
          | none => simp [hfraction, hexponent]
          | some exponent => simp [hfraction, hexponent]

/-- The literals with a sign, spelled without it. -/
def Unsigned (negative : Bool) (literal : Numeral) (text : List Char) : Prop :=
  ∃ whole fraction exponent front middle back, Whole whole front ∧ Fraction fraction middle ∧
    Exponent exponent back ∧ literal = ⟨negative, whole, fraction, exponent⟩ ∧
    text = front ++ (middle ++ back)

/-- The parts that are found are spelled one after the other. -/
theorem unsigned_sound (negative : Bool) : Sound (run (unsigned negative)) (Unsigned negative) := by
  intro text value rest h
  simp only [run_unsigned, Option.bind_eq_some_iff, Option.map_eq_some_iff] at h
  obtain ⟨⟨whole, afterWhole⟩, hwhole, ⟨fraction, afterFraction⟩, hfraction,
    ⟨exponent, afterExponent⟩, hexponent, heq⟩ := h
  obtain ⟨front, rfl, hfront⟩ := wholePart_sound _ _ _ hwhole
  obtain ⟨middle, rfl, hmiddle⟩ := fractionPart_sound _ _ _ hfraction
  obtain ⟨back, rfl, hback⟩ := exponentPart_sound _ _ _ hexponent
  cases heq
  exact ⟨front ++ (middle ++ back), by simp, whole, fraction, exponent, front, middle, back, hfront,
    hmiddle, hback, rfl, rfl⟩

/-- The parts are found where nothing follows that a number could go on with. -/
theorem unsigned_complete (negative : Bool) :
    Complete (run (unsigned negative)) (Unsigned negative) (Avoids isOfNumber) := by
  rintro value text rest
    ⟨whole, fraction, exponent, front, middle, back, hwhole, hfraction, hexponent, rfl, rfl⟩ hrest
  have hback := hexponent.avoids hrest
  rw [run_unsigned, List.append_assoc, List.append_assoc,
    wholePart_complete _ _ _ hwhole (hfraction.avoids hback), Option.bind_some,
    fractionPart_complete _ _ _ hfraction hback, Option.bind_some,
    exponentPart_complete _ _ _ hexponent hrest, Option.map_some]

/-- A minus sign makes the number negative. -/
theorem run_numeral_minus (text : List Char) :
    run numeral ('-' :: text) = run (unsigned true) text := by
  simp [run, numeral, Found.widen, Function.comp_def]

/-- Without a minus sign the number is not negative. -/
theorem run_numeral {text : List Char} (h : Avoids (· == '-') text) :
    run numeral text = run (unsigned false) text := by
  unfold run numeral
  split
  · next rest => simpa using h '-' rfl
  · rfl

/-- A number literal is one without a sign, or a minus sign and one without. -/
theorem number_iff {literal : Numeral} {text : List Char} :
    Number literal text ↔ Unsigned false literal text ∨
      ∃ front, text = '-' :: front ∧ Unsigned true literal front := by
  constructor
  · intro h
    cases h with
    | positive hwhole hfraction hexponent =>
        exact .inl ⟨_, _, _, _, _, _, hwhole, hfraction, hexponent, rfl, rfl⟩
    | negative hwhole hfraction hexponent =>
        exact .inr ⟨_, rfl, _, _, _, _, _, _, hwhole, hfraction, hexponent, rfl, rfl⟩
  · rintro (⟨_, _, _, _, _, _, hwhole, hfraction, hexponent, rfl, rfl⟩ |
      ⟨_, rfl, _, _, _, _, _, _, hwhole, hfraction, hexponent, rfl, rfl⟩)
    · exact .positive hwhole hfraction hexponent
    · exact .negative hwhole hfraction hexponent

/-- A number that is found is spelled by the characters that are taken. -/
theorem numeral_sound : Sound (run numeral) Number := by
  intro text value rest h
  by_cases hminus : Avoids (· == '-') text
  · rw [run_numeral hminus] at h
    obtain ⟨front, rfl, hunsigned⟩ := unsigned_sound false _ _ _ h
    exact ⟨front, rfl, number_iff.2 (.inl hunsigned)⟩
  · obtain ⟨c, more, hc, rfl⟩ := not_avoids_iff.1 hminus
    cases beq_iff_eq.1 hc
    rw [run_numeral_minus] at h
    obtain ⟨front, rfl, hunsigned⟩ := unsigned_sound true _ _ _ h
    exact ⟨'-' :: front, rfl, number_iff.2 (.inr ⟨front, rfl, hunsigned⟩)⟩

/-- Every number literal is found where nothing follows that a number could go on with. -/
theorem numeral_complete : Complete (run numeral) Number (Avoids isOfNumber) := by
  intro value front rest hnumber hrest
  rcases number_iff.1 hnumber with hunsigned | ⟨front, rfl, hunsigned⟩
  · have hminus : Avoids (· == '-') (front ++ rest) := by
      obtain ⟨_, _, _, front, middle, back, hwhole, -, -, -, rfl⟩ := hunsigned
      rw [List.append_assoc]
      refine hwhole.run.avoids (fun c hc => ?_) _
      rw [beq_eq_false_iff_ne]
      rintro rfl
      contradiction
    rw [run_numeral hminus]
    exact unsigned_complete false _ _ _ hunsigned hrest
  · rw [List.cons_append, run_numeral_minus]
    exact unsigned_complete true _ _ _ hunsigned hrest

end Reader

end AtomicRules.Json

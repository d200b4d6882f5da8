import Mathlib.Algebra.Group.Nat.Defs

/-!
# The order of texts by their bytes

Texts in UTF-8, compared byte by byte, are ordered as they are character by character
(`bytes_le_iff`). A character has a first byte that tells how many follow, and then six bits in each
byte, the highest first. So a greater character has a greater first byte, or the same first byte and
greater bits after it.
-/

namespace AtomicRules.Text

/-- The bytes of a text in UTF-8. -/
def bytes (text : String) : List UInt8 :=
  text.toUTF8.data.toList

/-- The bytes of a text are those of its characters. -/
theorem bytes_eq (text : String) : bytes text = text.toList.flatMap String.utf8EncodeChar := by
  rw [bytes, String.toUTF8, ← String.utf8Encode_toList, List.utf8Encode,
    List.toList_data_toByteArray]

/-! ## The bytes of a character -/

/-- The bytes of a code point after the first one, six bits in each. -/
def trailing : Nat → Nat → List UInt8
  | 0, _ => []
  | count + 1, code => trailing count (code / 64) ++ [UInt8.ofNat (code % 64 + 0x80)]

/-- The number of bytes of a code point after the first one. -/
def trailingCount (code : Nat) : Nat :=
  if code < 0x80 then 0 else if code < 0x800 then 1 else if code < 0x10000 then 2 else 3

/-- What marks a first byte before so many others. -/
def mark : Nat → Nat
  | 0 => 0
  | 1 => 0xc0
  | 2 => 0xe0
  | _ => 0xf0

/-- The first byte of a code point: its highest bits under the mark. -/
def leading (code : Nat) : Nat :=
  code / 64 ^ trailingCount code + mark (trailingCount code)

/-- The four lengths of a code point, each with its range and its first byte. -/
theorem leading_cases (code : Nat) :
    (trailingCount code = 0 ∧ code < 0x80 ∧ leading code = code) ∨
      (trailingCount code = 1 ∧ 0x80 ≤ code ∧ code < 0x800 ∧ leading code = code / 64 + 0xc0) ∨
      (trailingCount code = 2 ∧ 0x800 ≤ code ∧ code < 0x10000 ∧
        leading code = code / 4096 + 0xe0) ∨
      (trailingCount code = 3 ∧ 0x10000 ≤ code ∧ leading code = code / 262144 + 0xf0) := by
  unfold leading
  by_cases hone : code < 0x80
  · have hcount : trailingCount code = 0 := by simp [trailingCount, hone]
    exact .inl ⟨hcount, hone, by simp [hcount, mark]⟩
  by_cases htwo : code < 0x800
  · have hcount : trailingCount code = 1 := by simp [trailingCount, hone, htwo]
    exact .inr (.inl ⟨hcount, by omega, htwo, by simp [hcount, mark]⟩)
  by_cases hthree : code < 0x10000
  · have hcount : trailingCount code = 2 := by simp [trailingCount, hone, htwo, hthree]
    exact .inr (.inr (.inl ⟨hcount, by omega, hthree, by simp [hcount, mark]⟩))
  · have hcount : trailingCount code = 3 := by simp [trailingCount, hone, htwo, hthree]
    exact .inr (.inr (.inr ⟨hcount, by omega, by simp [hcount, mark]⟩))

theorem toNat_lt (c : Char) : c.toNat < 0x110000 := by
  have hvalid : c.toNat < 0xd800 ∨ 0xdfff < c.toNat ∧ c.toNat < 0x110000 := c.valid
  omega

/-- A character is written as its first byte and the bytes after it. -/
theorem utf8EncodeChar_eq (c : Char) :
    String.utf8EncodeChar c =
      UInt8.ofNat (leading c.toNat) :: trailing (trailingCount c.toNat) c.toNat := by
  have hlt := toNat_lt c
  have hval : c.val.toNat = c.toNat := rfl
  simp only [String.utf8EncodeChar, hval]
  generalize c.toNat = code at *
  rcases leading_cases code with
    ⟨hcount, h, hleading⟩ | ⟨hcount, h, h', hleading⟩ | ⟨hcount, h, h', hleading⟩ |
      ⟨hcount, h, hleading⟩
  · rw [hcount, hleading, if_pos (by omega)]
    rfl
  · rw [hcount, hleading, if_neg (by omega), if_pos (by omega), Nat.mod_eq_of_lt (by omega)]
    rfl
  · rw [hcount, hleading, if_neg (by omega), if_neg (by omega), if_pos (by omega),
      Nat.mod_eq_of_lt (by omega)]
    rfl
  · rw [hcount, hleading, if_neg (by omega), if_neg (by omega), if_neg (by omega),
      Nat.mod_eq_of_lt (by omega)]
    simp [trailing, Nat.div_div_eq_div_mul]

/-! ## The order of characters -/

/-- A greater code point with the same highest bits has greater bits after them. -/
theorem trailing_append_lt {low high : Nat} (hlt : low < high) (count : Nat)
    (hsame : low / 64 ^ count = high / 64 ^ count) (rest more : List UInt8) :
    trailing count low ++ rest < trailing count high ++ more := by
  induction count generalizing low high rest more with
  | zero =>
      rw [Nat.pow_zero, Nat.div_one, Nat.div_one] at hsame
      omega
  | succ count ih =>
      rw [Nat.pow_succ', ← Nat.div_div_eq_div_mul, ← Nat.div_div_eq_div_mul] at hsame
      rw [trailing, trailing, List.append_assoc, List.append_assoc]
      rcases Nat.lt_or_eq_of_le (Nat.div_le_div_right (c := 64) (Nat.le_of_lt hlt)) with hdiv | hdiv
      · exact ih hdiv hsame _ _
      · -- all bits but the last six are the same
        rw [hdiv]
        apply List.append_left_lt
        apply List.cons_lt_cons_iff.2
        left
        rw [UInt8.lt_iff_toNat_lt, UInt8.toNat_ofNat', UInt8.toNat_ofNat']
        omega

/-- A greater code point has a greater first byte, or the same one and the same highest bits. -/
theorem leading_lt_or {low high : Nat} (hlt : low < high) (hhigh : high < 0x110000) :
    leading high < 256 ∧ (leading low < leading high ∨ leading low = leading high ∧
      trailingCount low = trailingCount high ∧
      low / 64 ^ trailingCount low = high / 64 ^ trailingCount low) := by
  have hlowCases := leading_cases low
  have hhighCases := leading_cases high
  refine ⟨by omega, ?_⟩
  by_cases hsame : trailingCount low = trailingCount high
  · have hdiv : low / 64 ^ trailingCount low ≤ high / 64 ^ trailingCount low :=
      Nat.div_le_div_right (Nat.le_of_lt hlt)
    rw [leading, leading, ← hsame]
    omega
  · -- the first bytes of longer code points are greater
    left
    omega

/-- The bytes of a greater character are greater, whatever comes after them. -/
theorem utf8EncodeChar_append_lt {c d : Char} (hlt : c < d) (rest more : List UInt8) :
    String.utf8EncodeChar c ++ rest < String.utf8EncodeChar d ++ more := by
  have hcode : c.toNat < d.toNat := hlt
  obtain ⟨hbyte, hleading⟩ := leading_lt_or hcode (toNat_lt d)
  rw [utf8EncodeChar_eq, utf8EncodeChar_eq, List.cons_append, List.cons_append]
  rcases hleading with hless | ⟨hsame, hcount, hbits⟩
  · apply List.cons_lt_cons_iff.2
    left
    rw [UInt8.lt_iff_toNat_lt, UInt8.toNat_ofNat', UInt8.toNat_ofNat']
    omega
  · rw [hsame, ← hcount]
    exact List.cons_lt_cons_iff.2 (.inr ⟨rfl, trailing_append_lt hcode _ hbits rest more⟩)

/-! ## The order of texts -/

/-- The bytes of a greater text are greater. -/
theorem flatMap_utf8EncodeChar_lt {text other : List Char} (hlt : text < other) :
    text.flatMap String.utf8EncodeChar < other.flatMap String.utf8EncodeChar := by
  induction text generalizing other with
  | nil =>
      cases other with
      | nil => exact absurd hlt (List.lt_irrefl [])
      | cons d others =>
          rw [List.flatMap_nil, List.flatMap_cons, utf8EncodeChar_eq, List.cons_append]
          exact List.nil_lt_cons _ _
  | cons c rest ih =>
      cases other with
      | nil => exact absurd hlt (List.not_lt_nil _)
      | cons d others =>
          rw [List.flatMap_cons, List.flatMap_cons]
          rcases List.cons_lt_cons_iff.1 hlt with hless | ⟨rfl, hrest⟩
          · exact utf8EncodeChar_append_lt hless _ _
          · exact List.append_left_lt (ih hrest)

/-- One text comes before another in the order of its bytes exactly when it does in the order of its
characters. -/
theorem bytes_lt_iff {text other : String} :
    bytes text < bytes other ↔ text.toList < other.toList := by
  have hgrows {a b : String} (h : a.toList < b.toList) : bytes a < bytes b := by
    rw [bytes_eq, bytes_eq]
    exact flatMap_utf8EncodeChar_lt h
  refine ⟨fun hbytes => ?_, hgrows⟩
  apply Classical.byContradiction
  intro hnot
  rcases List.le_iff_lt_or_eq.1 (List.not_lt.1 hnot) with hless | heq
  · exact List.lt_asymm hbytes (hgrows hless)
  · rw [String.toList_inj.1 heq] at hbytes
    exact List.lt_irrefl _ hbytes

/-- Texts are ordered by their bytes as they are by their characters. -/
theorem bytes_le_iff {text other : String} : bytes text ≤ bytes other ↔ text ≤ other := by
  rw [← List.not_lt, bytes_lt_iff]
  exact String.not_lt

end AtomicRules.Text

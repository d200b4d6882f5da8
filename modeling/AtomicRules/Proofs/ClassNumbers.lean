import AtomicRules.Proofs.Isolation
import Mathlib.Data.Nat.Digits.Lemmas

/-!
# Numbers of class names

The number of a class can be read off its name. Its digits are the remainders of repeated division
by the base, the last remainder first (`Text.Radix.digits_eq_reverse`), so their positional value is
the number. Of all texts only the numeral of a number is written with small letters and digits, has
no needless zero in front and has the number as its value (`isNumeral_iff`). `number?` accepts a
name exactly if a number was made into it.
-/

namespace AtomicRules

namespace Text.Radix

/-- The digits of a number are what repeated division by the base leaves, in reverse. -/
theorem digits_eq_reverse {base : Nat} (hbase : 1 < base) (n : Nat) :
    digits base n = (Nat.digits base n).reverse := by
  induction n using Nat.strongRecOn with
  | ind n ih =>
      rcases Nat.eq_zero_or_pos n with rfl | hn
      · rw [digits_zero, Nat.digits_zero, List.reverse_nil]
      · rw [digits_eq_append hbase hn, ih (n / base) (Nat.div_lt_self hn hbase),
          Nat.digits_def' hbase hn, List.reverse_cons]

/-- The last digit counts once, and each one before it the base times as much as the next. -/
theorem value_eq_ofDigits (base : Nat) (list : List Nat) :
    value base list = Nat.ofDigits base list.reverse := by
  induction list using List.reverseRecOn with
  | nil => rfl
  | append_singleton high digit ih =>
      rw [value_append_singleton, ih, List.reverse_concat, Nat.ofDigits_cons, Nat.add_comm]

/-- A larger number does not have a shorter numeral. -/
theorem length_numeral_le {base m n : Nat} (hbase : 1 < base) (h : m ≤ n) :
    (numeral base m).length ≤ (numeral base n).length := by
  by_cases hm : m = 0
  · -- zero has no digits, but a numeral of one character
    rw [numeral, if_pos hm]
    exact List.length_pos_of_ne_nil (numeral_ne_nil hbase n)
  · have hn : n ≠ 0 := by omega
    rw [numeral, numeral, if_neg hm, if_neg hn, List.length_map, List.length_map,
      digits_eq_reverse hbase, digits_eq_reverse hbase, List.length_reverse, List.length_reverse]
    exact Nat.le_length_digits_le base m n h

end Text.Radix

open Text.Radix

namespace ClassName

/-! ## Numerals -/

/-- The text is written as a numeral is. It has small letters and digits only, at least one of them,
and a zero in front only if it is nothing else. -/
def isCanonical (text : List Char) : Bool :=
  !text.isEmpty && text.all isDigit && (text.head? != some '0' || text == ['0'])

/-- The text is a numeral of the number. -/
structure IsNumeral (text : List Char) (n : Nat) : Prop where
  ne_nil : text ≠ []
  digits : ∀ c ∈ text, isDigit c
  head : text.head? = some '0' → text = ['0']
  value : Nat.ofDigits base (text.reverse.map digitValue) = n

theorem ofNumeral_eq_ofDigits (text : List Char) :
    ofNumeral base text = Nat.ofDigits base (text.reverse.map digitValue) := by
  rw [ofNumeral, value_eq_ofDigits, List.map_reverse]

/-- A numeral is a text that is written as one and has the value of the number. -/
theorem isNumeral_iff_isCanonical {text : List Char} {n : Nat} :
    IsNumeral text n ↔ isCanonical text ∧ ofNumeral base text = n := by
  have hcanonical : isCanonical text ↔
      text ≠ [] ∧ (∀ c ∈ text, isDigit c) ∧ (text.head? = some '0' → text = ['0']) := by
    simp [isCanonical, and_assoc, imp_iff_not_or]
  rw [hcanonical, ofNumeral_eq_ofDigits]
  constructor
  · intro h
    exact ⟨⟨h.ne_nil, h.digits, h.head⟩, h.value⟩
  · rintro ⟨⟨hne, hdigits, hhead⟩, hvalue⟩
    exact ⟨hne, hdigits, hhead, hvalue⟩

/-- Every number has a numeral. -/
theorem isNumeral_numeral (n : Nat) : IsNumeral (numeral base n) n where
  ne_nil := numeral_ne_nil (by decide) n
  digits := fun _ hc => isDigit_of_mem_numeral hc
  head := numeral_of_head?
  value := by rw [← ofNumeral_eq_ofDigits, ofNumeral_numeral (by decide) (by decide)]

/-- Every number has one numeral only. -/
theorem isNumeral_iff {text : List Char} {n : Nat} : IsNumeral text n ↔ text = numeral base n := by
  constructor
  · intro h
    obtain ⟨m, hm⟩ : ∃ m, numeral base m = text := by
      -- a zero in front is all there is, and no other digit in front is needless
      by_cases hzero : text.head? = some '0'
      · exact ⟨0, (h.head hzero).symm⟩
      · exact exists_numeral_eq h.ne_nil h.digits hzero
    have hvalue : m = n := by
      rw [← h.value, ← ofNumeral_eq_ofDigits, ← hm, ofNumeral_numeral (by decide) (by decide)]
    rw [← hm, hvalue]
  · rintro rfl
    exact isNumeral_numeral n

/-! ## Reading a name -/

/-- The number of a class name under a stem. A text that is no such name has none. -/
def number? (stem name : String) : Option Nat :=
  ((stem.toList.isPrefixOf? name.toList).filter isCanonical).map (ofNumeral base)

/-- A name has the number that it was made of, and no other text has a number. -/
theorem number?_eq_some_iff {stem name : String} {n : Nat} :
    number? stem name = some n ↔ name = make stem n := by
  have hread : number? stem name = some n ↔
      ∃ text, stem.toList ++ text = name.toList ∧ IsNumeral text n := by
    simp [number?, isNumeral_iff_isCanonical, List.isPrefixOf?_eq_some_iff_append_eq, and_assoc]
  rw [hread, ← String.toList_inj, toList_make]
  constructor
  · rintro ⟨text, hname, htext⟩
    rw [← hname, isNumeral_iff.1 htext]
  · intro hname
    exact ⟨numeral base n, hname.symm, isNumeral_numeral n⟩

example : number? "t1" "t10" = some 0 := by decide +kernel
example : number? "t" "t01" = none := by decide +kernel

theorem length_make (stem : String) (n : Nat) :
    (make stem n).length = stem.length + (numeral base n).length := by
  rw [← String.length_toList, toList_make, List.length_append, String.length_toList]

/-- Every number, however large, has a numeral of small letters and digits without a needless zero
in front, whose positional value in base 36 is the number. Under one stem no two numbers have one
name, a name is read back as the number that it was made of and nothing else is read as a number,
and a larger number never has a shorter name. -/
theorem readable_make (stem : String) :
    (∀ n, IsNumeral (numeral base n) n) ∧
      Function.Injective (make stem) ∧
      (∀ name n, number? stem name = some n ↔ name = make stem n) ∧
      ∀ m n, m ≤ n → (make stem m).length ≤ (make stem n).length := by
  refine ⟨isNumeral_numeral, fun _ _ => make_inj, fun _ _ => number?_eq_some_iff, ?_⟩
  intro m n h
  rw [length_make, length_make]
  exact Nat.add_le_add_left (length_numeral_le (by decide) h) _

/-- The largest number of 64 bits has thirteen digits, and the first number of two digits follows
the last one of a single digit. -/
theorem readable_make_largest :
    let largest := UInt64.size - 1
    make "t" largest = "t3w5e11264sgsf" ∧
      IsNumeral "3w5e11264sgsf".toList largest ∧
      number? "t" "t3w5e11264sgsf" = some largest ∧
      make "t" 35 ≠ make "t" 36 ∧
      35 ≤ 36 ∧ (make "t" 35).length ≤ (make "t" 36).length := by
  intro largest
  obtain ⟨hnumeral, hinj, hread, hlength⟩ := readable_make "t"
  have hdigits : numeral base largest = "3w5e11264sgsf".toList := by decide +kernel
  have hmake : make "t" largest = "t3w5e11264sgsf" := by decide +kernel
  have hle : 35 ≤ 36 := by decide
  exact ⟨hmake, hdigits ▸ hnumeral largest, (hread _ largest).2 hmake.symm,
    hinj.ne (by decide), hle, hlength 35 36 hle⟩

end ClassName

end AtomicRules

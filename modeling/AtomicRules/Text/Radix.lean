/-!
# Positional numerals

The digits of a number in any base from two up, most significant first, and their text over
`0`-`9` and `a`-`z`. The digits of a number have its value (`value_digits`), each is smaller than
the base (`lt_of_mem_digits`) and the first one is not zero (`head?_digits_ne_zero`). The number
can be read off its numeral (`ofNumeral_numeral`).
-/

namespace AtomicRules.Text.Radix

/-- The digits of a number, most significant first. Zero has none. -/
def digits (base n : Nat) : List Nat :=
  if 1 < base ∧ 0 < n then digits base (n / base) ++ [n % base] else []
termination_by n
decreasing_by exact Nat.div_lt_self (by omega) (by omega)

/-- The number that a list of digits stands for. -/
def value (base : Nat) (digits : List Nat) : Nat :=
  digits.foldl (fun high digit => base * high + digit) 0

/-- The character of a digit below 36. -/
def digitChar (digit : Nat) : Char :=
  if digit < 10 then Char.ofNat ('0'.toNat + digit) else Char.ofNat ('a'.toNat + (digit - 10))

/-- The digit that a character stands for. -/
def digitValue (c : Char) : Nat :=
  if c.toNat < 'a'.toNat then c.toNat - '0'.toNat else c.toNat - 'a'.toNat + 10

/-- The shortest text of a number in a base of at most 36. -/
def numeral (base n : Nat) : List Char :=
  if n = 0 then ['0'] else (digits base n).map digitChar

/-- The number that a numeral stands for. -/
def ofNumeral (base : Nat) (text : List Char) : Nat :=
  value base (text.map digitValue)

theorem digits_zero (base : Nat) : digits base 0 = [] := by
  simp [digits]

/-- The last digit is the remainder by the base, the ones before it are those of the quotient. -/
theorem digits_eq_append {base n : Nat} (hbase : 1 < base) (hn : 0 < n) :
    digits base n = digits base (n / base) ++ [n % base] := by
  rw [digits, if_pos ⟨hbase, hn⟩]

theorem value_append_singleton (base : Nat) (high : List Nat) (digit : Nat) :
    value base (high ++ [digit]) = base * value base high + digit := by
  simp [value]

/-- A number is the value of its digits. -/
theorem value_digits {base : Nat} (hbase : 1 < base) (n : Nat) :
    value base (digits base n) = n := by
  induction n using Nat.strongRecOn with
  | ind n ih =>
      rcases Nat.eq_zero_or_pos n with rfl | hn
      · simp [digits_zero, value]
      · rw [digits_eq_append hbase hn, value_append_singleton,
          ih (n / base) (Nat.div_lt_self hn hbase), Nat.div_add_mod]

/-- Every digit is smaller than the base. -/
theorem lt_of_mem_digits {base n digit : Nat} (hbase : 1 < base) (h : digit ∈ digits base n) :
    digit < base := by
  induction n using Nat.strongRecOn with
  | ind n ih =>
      rcases Nat.eq_zero_or_pos n with rfl | hn
      · simp [digits_zero] at h
      · rw [digits_eq_append hbase hn, List.mem_append, List.mem_singleton] at h
        rcases h with h | rfl
        · exact ih (n / base) (Nat.div_lt_self hn hbase) h
        · exact Nat.mod_lt n (by omega)

/-- A number other than zero has digits. -/
theorem digits_ne_nil {base n : Nat} (hbase : 1 < base) (hn : 0 < n) : digits base n ≠ [] := by
  simp [digits_eq_append hbase hn]

/-- No number begins with the digit zero. -/
theorem head?_digits_ne_zero {base n : Nat} (hbase : 1 < base) :
    (digits base n).head? ≠ some 0 := by
  induction n using Nat.strongRecOn with
  | ind n ih =>
      rcases Nat.eq_zero_or_pos n with rfl | hn
      · simp [digits_zero]
      · rw [digits_eq_append hbase hn, List.head?_append]
        rcases Nat.eq_zero_or_pos (n / base) with small | large
        · have lt : n < base := (Nat.div_eq_zero_iff_lt (by omega)).1 small
          simp [small, digits_zero, Nat.mod_eq_of_lt lt]
          omega
        · have some := List.isSome_head?.2 (digits_ne_nil hbase large)
          rw [Option.or_of_isSome some]
          exact ih (n / base) (Nat.div_lt_self hn hbase)

/-- A numeral is never empty. -/
theorem numeral_ne_nil {base : Nat} (hbase : 1 < base) (n : Nat) : numeral base n ≠ [] := by
  unfold numeral
  split
  · simp
  · simpa using digits_ne_nil hbase (by omega)

/-- A digit can be read off its character. -/
theorem digitValue_digitChar {digit : Nat} (h : digit < 36) :
    digitValue (digitChar digit) = digit :=
  (by decide : ∀ d < 36, digitValue (digitChar d) = d) digit h

/-- A number can be read off its numeral. -/
theorem ofNumeral_numeral {base : Nat} (hbase : 1 < base) (small : base ≤ 36) (n : Nat) :
    ofNumeral base (numeral base n) = n := by
  unfold ofNumeral numeral
  split
  · next zero => subst zero; simp [value, digitValue]
  · have same : (digits base n).map (digitValue ∘ digitChar) = (digits base n).map id :=
      List.map_congr_left fun d hd =>
        digitValue_digitChar (Nat.lt_of_lt_of_le (lt_of_mem_digits hbase hd) small)
    rw [List.map_map, same, List.map_id, value_digits hbase]

/-- Two numbers with one numeral are the same. -/
theorem numeral_inj {base : Nat} (hbase : 1 < base) (small : base ≤ 36) {m n : Nat}
    (h : numeral base m = numeral base n) : m = n := by
  rw [← ofNumeral_numeral hbase small m, h, ofNumeral_numeral hbase small]

example : numeral 36 1295 = ['z', 'z'] := by decide +kernel
example : numeral 10 1040 = ['1', '0', '4', '0'] := by decide +kernel

end AtomicRules.Text.Radix

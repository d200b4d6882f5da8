import AtomicRules.Text.Lowercase
import AtomicRules.Text.WhiteSpace
import Mathlib.Data.List.Basic

/-!
# What lower casing leaves

Every character of a lowered text is a lower case of a character of the text (`LowersTo`), in the
same order, and is its own lower case. So lowering twice is lowering once (`lower_lower`). No lower
case is white space, and one in ASCII is a letter, unless it is the character itself.
-/

namespace AtomicRules.Text

/-! ## The table -/

namespace LowerRun

/-- The last of the run's lower cases. -/
def targetLast (run : LowerRun) : Nat :=
  run.target + (run.last - run.first)

/-- No lower case of the run is a capital of the other one: they lie before or behind the other run,
or it has every second code point only and they lie between. -/
def apart (run other : LowerRun) : Bool :=
  Nat.blt run.targetLast other.first || Nat.blt other.last run.target ||
    (Nat.beq other.step 2 && Nat.beq ((run.target + other.first) % 2) 1 &&
      (Nat.beq run.step 2 || Nat.beq run.first run.last))

/-- The lower cases of the run are code points of characters. None of them is white space or the
capital I with a dot. In ASCII are only the capitals from A to Z and their lower cases, and the
lower case of the Kelvin sign. -/
structure Regular (run : LowerRun) : Prop where
  valid : run.targetLast < 0xd800 ∨ 0xdfff < run.target ∧ run.targetLast < 0x110000
  notWhiteSpace : ∀ range ∈ whiteSpace.ranges,
    run.targetLast < range.1 ∨ range.2 < run.target
  notDotted : run.targetLast < 'İ'.toNat ∨ 'İ'.toNat < run.target
  ascii : (0x80 ≤ run.first ∧ 0x80 ≤ run.target) ∨
    (run.first = 0x41 ∧ run.last = 0x5a ∧ run.target = 0x61) ∨
      (run.first = 0x212a ∧ run.last = 0x212a ∧ run.target = 0x6b)

theorem covers_iff {run : LowerRun} {code : Nat} :
    run.covers code ↔ run.first ≤ code ∧ code ≤ run.last ∧ (code - run.first) % run.step = 0 := by
  simp [covers, and_assoc]

/-- Where runs are apart, a lower case of the one is not covered by the other. -/
theorem covers_of_apart {run other : LowerRun} (h : run.apart other) {code : Nat}
    (hcode : run.covers code) : other.covers (run.target + (code - run.first)) = false := by
  rw [Bool.eq_false_iff, ne_eq, covers_iff]
  rw [covers_iff] at hcode
  simp only [apart, targetLast, Bool.or_eq_true, Bool.and_eq_true, Nat.blt_eq, Nat.beq_eq] at h
  rintro ⟨hfirst, hlast, hstep⟩
  rcases h with (hbefore | hbehind) | ⟨⟨hother, hodd⟩, heven⟩
  · omega
  · omega
  · rw [hother] at hstep
    rcases heven with heven | heven
    · rw [heven] at hcode
      omega
    · omega

end LowerRun

/-- The runs are apart, each from the others and from itself. -/
theorem apart_of_mem {run other : LowerRun} (h : run ∈ lowerRuns) (hother : other ∈ lowerRuns) :
    run.apart other := by
  have hall : (lowerRuns.all fun run => lowerRuns.all run.apart) = true := by decide +kernel
  exact List.all_eq_true.1 (List.all_eq_true.1 hall run h) other hother

instance : DecidablePred LowerRun.Regular := fun _ =>
  decidable_of_iff (_ ∧ _ ∧ _ ∧ _)
    ⟨fun ⟨hvalid, hblank, hdotted, hascii⟩ => ⟨hvalid, hblank, hdotted, hascii⟩,
      fun ⟨hvalid, hblank, hdotted, hascii⟩ => ⟨hvalid, hblank, hdotted, hascii⟩⟩

theorem regular_of_mem {run : LowerRun} (h : run ∈ lowerRuns) : run.Regular := by
  have hall : ∀ run ∈ lowerRuns, run.Regular := by decide +kernel
  exact hall run h

/-- A code point is its own lower case, or a run covers it and has its lower case. -/
theorem lowerCode_cases (code : Nat) : lowerCode code = code ∨
    ∃ run ∈ lowerRuns, run.covers code ∧ lowerCode code = run.target + (code - run.first) := by
  unfold lowerCode
  cases hfind : lowerRuns.find? (·.covers code) with
  | none => exact .inl rfl
  | some run =>
      have hcovers : run.covers code := by simpa using List.find?_some hfind
      exact .inr ⟨run, List.mem_of_find?_eq_some hfind, hcovers, rfl⟩

/-- A lower case is its own lower case. -/
theorem lowerCode_lowerCode (code : Nat) : lowerCode (lowerCode code) = lowerCode code := by
  rcases lowerCode_cases code with hsame | ⟨run, hrun, hcovers, hlower⟩
  · rw [hsame, hsame]
  · have hnone : lowerRuns.find? (·.covers (run.target + (code - run.first))) = none := by
      rw [List.find?_eq_none]
      intro other hother
      rw [LowerRun.covers_of_apart (apart_of_mem hrun hother) hcovers]
      simp
    rw [hlower, lowerCode, hnone]

/-- The lower case of a character is a character. -/
theorem toNat_ofNat_lowerCode (c : Char) :
    (Char.ofNat (lowerCode c.toNat)).toNat = lowerCode c.toNat := by
  have hvalid : (lowerCode c.toNat).isValidChar := by
    rcases lowerCode_cases c.toNat with hsame | ⟨run, hrun, hcovers, hlower⟩
    · rw [hsame]
      exact c.valid
    · have hregular := (regular_of_mem hrun).valid
      rw [LowerRun.covers_iff] at hcovers
      rw [LowerRun.targetLast] at hregular
      rw [hlower, Nat.isValidChar]
      omega
  rw [Char.ofNat, dif_pos hvalid]
  rfl

/-! ## Characters -/

/-- What holds of the code points in a range holds of the characters in it. -/
theorem forall_codes {P : Char → Prop} {first bound : Nat}
    (h : ∀ n < bound, first ≤ n → P (Char.ofNat n)) {c : Char} (hfirst : first ≤ c.toNat)
    (hbound : c.toNat < bound) : P c := by
  have hchar := h c.toNat hbound hfirst
  rwa [Char.ofNat_toNat] at hchar

theorem isUpper_iff {c : Char} : c.isUpper ↔ 0x41 ≤ c.toNat ∧ c.toNat ≤ 0x5a :=
  decide_eq_true_iff.trans (and_congr UInt32.le_iff_toNat_le UInt32.le_iff_toNat_le)

theorem isLower_iff {c : Char} : c.isLower ↔ 0x61 ≤ c.toNat ∧ c.toNat ≤ 0x7a :=
  Bool.and_eq_true_iff.trans (and_congr (decide_eq_true_iff.trans UInt32.le_iff_toNat_le)
    (decide_eq_true_iff.trans UInt32.le_iff_toNat_le))

/-- The second character is the lower case of the first one, alone or with others, in some place of
a text. -/
def LowersTo (c d : Char) : Prop :=
  d ∈ lowerChar c ∨ (c = 'Σ' ∧ d = 'ς')

/-- A lower case is a part of that of the capital I with a dot, a final sigma, or what the table
says. -/
theorem LowersTo.cases {c d : Char} (h : LowersTo c d) :
    (c = 'İ' ∧ (d = 'i' ∨ d = '\u0307')) ∨ (c = 'Σ' ∧ d = 'ς') ∨
      (c ≠ 'İ' ∧ d.toNat = lowerCode c.toNat) := by
  rcases h with hlower | hsigma
  · unfold lowerChar at hlower
    split at hlower
    · next hdotted => exact .inl ⟨hdotted, by simpa using hlower⟩
    · next hdotted =>
        rw [List.mem_singleton.1 hlower]
        exact .inr (.inr ⟨hdotted, toNat_ofNat_lowerCode c⟩)
  · exact .inr (.inl hsigma)

/-- A lower case is its own lower case. -/
theorem LowersTo.settled {c d : Char} (h : LowersTo c d) : d ≠ 'Σ' ∧ lowerChar d = [d] := by
  rcases h.cases with ⟨-, rfl | rfl⟩ | ⟨-, rfl⟩ | ⟨hdotted, hlower⟩
  · decide +kernel
  · decide +kernel
  · decide +kernel
  · have hown : lowerCode d.toNat = d.toNat := by rw [hlower, lowerCode_lowerCode]
    constructor
    · rintro rfl
      exact absurd hown (by decide +kernel)
    · have hd : d ≠ 'İ' := by
        rintro rfl
        rcases lowerCode_cases c.toNat with hsame | ⟨run, hrun, hcovers, hrunLower⟩
        · rw [hsame, Char.toNat_inj] at hlower
          exact hdotted hlower.symm
        · have hregular := (regular_of_mem hrun).notDotted
          rw [LowerRun.covers_iff] at hcovers
          rw [LowerRun.targetLast] at hregular
          omega
      rw [lowerChar, if_neg hd, hown, Char.ofNat_toNat]

/-- No other character is lowered to white space. -/
theorem LowersTo.eq_of_isWhiteSpace {c d : Char} (h : LowersTo c d) (hd : isWhiteSpace d) :
    d = c := by
  rcases h.cases with ⟨-, rfl | rfl⟩ | ⟨-, rfl⟩ | ⟨-, hlower⟩
  · contradiction
  · contradiction
  · contradiction
  · rcases lowerCode_cases c.toNat with hsame | ⟨run, hrun, hcovers, hrunLower⟩
    · rwa [hsame, Char.toNat_inj] at hlower
    · obtain ⟨range, hrange, hfirst, hlast⟩ := CodePoints.contains_iff.1 hd
      have hregular := (regular_of_mem hrun).notWhiteSpace range hrange
      rw [LowerRun.covers_iff] at hcovers
      rw [LowerRun.targetLast] at hregular
      omega

/-- In ASCII only a letter is a lower case of another character, namely of its capital, or the
letters `k` and `i` of the Kelvin sign and the capital I with a dot. -/
theorem LowersTo.ascii {c d : Char} (h : LowersTo c d) (hd : d.toNat < 0x80) :
    d = c ∨ (d.isLower ∧ (c.isUpper ∨ d = 'k' ∨ d = 'i')) := by
  rcases h.cases with ⟨-, rfl | rfl⟩ | ⟨-, rfl⟩ | ⟨-, hlower⟩
  · exact .inr ⟨rfl, .inr (.inr rfl)⟩
  · contradiction
  · contradiction
  · rcases lowerCode_cases c.toNat with hsame | ⟨run, hrun, hcovers, hrunLower⟩
    · rw [hsame, Char.toNat_inj] at hlower
      exact .inl hlower
    · rw [LowerRun.covers_iff] at hcovers
      rcases (regular_of_mem hrun).ascii with hlarge | ⟨hfirst, hlast, htarget⟩ |
        ⟨hfirst, hlast, htarget⟩
      · omega
      · rw [isLower_iff, isUpper_iff]
        omega
      · have hk : d = 'k' := by
          rw [← Char.toNat_inj]
          show d.toNat = 0x6b
          omega
        subst hk
        exact .inr ⟨rfl, .inr (.inl rfl)⟩

/-- The capitals of ASCII have others as lower cases. -/
theorem lowerChar_of_isUpper {c : Char} (h : c.isUpper) :
    lowerChar c = [c.toLower] ∧ c.toLower ≠ c := by
  obtain ⟨hfirst, hlast⟩ := isUpper_iff.1 h
  exact forall_codes (P := fun c => lowerChar c = [c.toLower] ∧ c.toLower ≠ c) (by decide +kernel)
    hfirst (Nat.lt_succ_of_le hlast)

/-- All else in ASCII is its own lower case. -/
theorem lowerChar_of_ascii {c : Char} (h : c.toNat < 0x80) (hc : c.isUpper = false) :
    lowerChar c = [c] := by
  have hdotted : c ≠ 'İ' := by
    rintro rfl
    contradiction
  have hown : lowerCode c.toNat = c.toNat := by
    rcases lowerCode_cases c.toNat with hsame | ⟨run, hrun, hcovers, -⟩
    · exact hsame
    · rw [Bool.eq_false_iff, ne_eq, isUpper_iff] at hc
      have hregular := (regular_of_mem hrun).ascii
      rw [LowerRun.covers_iff] at hcovers
      omega
  rw [lowerChar, if_neg hdotted, hown, Char.ofNat_toNat]

/-- No lower case is a capital of ASCII. -/
theorem LowersTo.isUpper_eq_false {c d : Char} (h : LowersTo c d) : d.isUpper = false := by
  rw [Bool.eq_false_iff]
  intro hupper
  obtain ⟨hlower, hne⟩ := lowerChar_of_isUpper hupper
  rw [h.settled.2, List.singleton_inj] at hlower
  exact hne hlower.symm

/-! ## Texts -/

/-- A text is lowered character by character, and every character leaves something. -/
theorem lowerAfter_cons (before : List Char) (c : Char) (rest : List Char) :
    ∃ lowered ≠ [], (∀ d ∈ lowered, LowersTo c d) ∧
      lowerAfter before (c :: rest) = lowered ++ lowerAfter (c :: before) rest := by
  refine ⟨_, ?_, ?_, rfl⟩
  · unfold lowerChar
    split
    · simp
    · split <;> simp
  · intro d hd
    split at hd
    · next hsigma =>
        subst hsigma
        rw [List.mem_singleton.1 hd, lowerSigma]
        split
        · exact .inr ⟨rfl, rfl⟩
        · exact .inl (by decide +kernel)
    · exact .inl hd

/-- A character with a single lower case leaves this one. -/
theorem lowerAfter_cons_of_lowerChar {c d : Char} (hsigma : c ≠ 'Σ') (h : lowerChar c = [d])
    (before rest : List Char) :
    lowerAfter before (c :: rest) = d :: lowerAfter (c :: before) rest := by
  rw [lowerAfter, if_neg hsigma, h]
  rfl

/-- Every character of a lowered text comes from one of the text. -/
theorem exists_of_mem_lowerAfter {before text : List Char} {d : Char}
    (h : d ∈ lowerAfter before text) : ∃ c ∈ text, LowersTo c d := by
  induction text generalizing before with
  | nil => contradiction
  | cons c rest ih =>
      obtain ⟨lowered, -, hlowers, htext⟩ := lowerAfter_cons before c rest
      rw [htext, List.mem_append] at h
      rcases h with hfirst | hrest
      · exact ⟨c, List.mem_cons_self, hlowers d hfirst⟩
      · obtain ⟨other, hother, hd⟩ := ih hrest
        exact ⟨other, List.mem_cons_of_mem c hother, hd⟩

/-- The first character of a lowered text comes from the first one of the text. -/
theorem exists_of_head?_lowerAfter {before text : List Char} {d : Char}
    (h : (lowerAfter before text).head? = some d) : ∃ c, text.head? = some c ∧ LowersTo c d := by
  cases text with
  | nil => contradiction
  | cons c rest =>
      obtain ⟨lowered, hne, hlowers, htext⟩ := lowerAfter_cons before c rest
      rw [htext, List.head?_append_of_ne_nil lowered hne] at h
      exact ⟨c, rfl, hlowers d (List.mem_of_head? h)⟩

/-- The last character of a lowered text comes from the last one of the text. -/
theorem exists_of_getLast?_lowerAfter {before text : List Char} {d : Char}
    (h : (lowerAfter before text).getLast? = some d) :
    ∃ c, text.getLast? = some c ∧ LowersTo c d := by
  induction text generalizing before with
  | nil => contradiction
  | cons c rest ih =>
      obtain ⟨lowered, hne, hlowers, htext⟩ := lowerAfter_cons before c rest
      rw [htext] at h
      cases rest with
      | nil =>
          rw [lowerAfter, List.append_nil] at h
          exact ⟨c, rfl, hlowers d (List.mem_of_getLast? h)⟩
      | cons next rest =>
          obtain ⟨more, hmore, -, hrest⟩ := lowerAfter_cons (c :: before) next rest
          rw [List.getLast?_append_of_ne_nil lowered (by simp [hrest, hmore])] at h
          rw [List.getLast?_cons_cons]
          exact ih h

/-- Lowering twice is lowering once. -/
theorem lower_lower (text : List Char) : lower (lower text) = lower text := by
  apply lower_eq_self
  intro d hd
  obtain ⟨c, -, hlowers⟩ := exists_of_mem_lowerAfter hd
  exact hlowers.settled

end AtomicRules.Text

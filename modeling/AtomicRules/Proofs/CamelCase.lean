import AtomicRules.Proofs.Spelling
import AtomicRules.Proofs.Stages
import Mathlib.Data.List.TakeWhile

/-!
# Names in camel case

A CSS name is also written without its hyphens, each letter after one as a capital. `camel` writes
it so, and the CSS spelling of what it writes is the name again. The same holds of the name itself,
of the names of one vendor with a small first letter, and of all these with white space around
(`Spells`). So the spellings of a property ask for the same rules (`requests_of_spells`).
-/

namespace AtomicRules

namespace Key

open Text

/-! ## Names -/

/-- The characters of names. -/
def isNameChar (c : Char) : Bool :=
  c.isLower || c.isDigit || c == '-'

/-- A name in CSS: it has small letters, digits and hyphens, every hyphen stands before a letter,
and the vendor letters have a hyphen before them. -/
structure IsName (name : List Char) : Prop where
  ne_nil : name ≠ []
  chars : ∀ c ∈ name, isNameChar c
  letters : ∀ i, name[i]? = some '-' → ∃ c ∈ name[i + 1]?, c.isLower
  vendor : ¬ ['m', 's'] <+: name

/-- The check for a name. The hyphens are looked for among the characters that there are. -/
def isName (name : List Char) : Bool :=
  !name.isEmpty && name.all isNameChar &&
    (List.range name.length).all (fun i => name[i]? != some '-' || name[i + 1]?.any Char.isLower) &&
    !List.isPrefixOf ['m', 's'] name

theorem isName_iff {name : List Char} : isName name = true ↔ IsName name := by
  simp only [isName, Bool.and_eq_true, Bool.or_eq_true, Bool.not_eq_true',
    List.isEmpty_iff, List.all_eq_true, List.mem_range, bne_iff_ne, Option.any_eq_true,
    Bool.eq_false_iff, ne_eq, List.isPrefixOf_iff_prefix]
  constructor
  · rintro ⟨⟨⟨hne, hchars⟩, hletters⟩, hvendor⟩
    refine ⟨hne, hchars, fun i hi => ?_, hvendor⟩
    have hlt := (List.getElem?_eq_some_iff.1 hi).1
    exact (hletters i hlt).resolve_left (not_not_intro hi)
  · intro h
    refine ⟨⟨⟨h.ne_nil, h.chars⟩, fun i _ => ?_⟩, h.vendor⟩
    exact Decidable.not_or_of_imp (h.letters i)

instance : DecidablePred IsName := fun name =>
  decidable_of_iff (isName name = true) isName_iff

/-- The name without its hyphens, the letter after each of them as a capital. -/
def camel : List Char → List Char
  | '-' :: c :: rest => c.toUpper :: camel rest
  | c :: rest => c :: camel rest
  | [] => []

/-- The text with a small first letter. -/
def uncapitalize : List Char → List Char
  | c :: rest => c.toLower :: rest
  | [] => []

/-- The ways to write a name as a key. -/
inductive Spells (name : List Char) : List Char → Prop
  | kebab : Spells name name
  | camel : Spells name (Key.camel name)
  | vendor (hvendor : ['-', 'm', 's'] <+: name) : Spells name (uncapitalize (Key.camel name))
  | blanks {key before after : List Char} (hkey : Spells name key)
      (hbefore : ∀ c ∈ before, isWhiteSpace c) (hafter : ∀ c ∈ after, isWhiteSpace c) :
      Spells name (before ++ key ++ after)

example : camel "-ms-flex-order".toList = "MsFlexOrder".toList := by decide +kernel

/-! ## Characters -/

/-- The characters of names are no capitals, no white space and no commas, nor are their capitals
white space or commas. -/
theorem isNameChar_cases {c : Char} (h : isNameChar c) : c.toNat < 0x80 ∧ c.isUpper = false ∧
    ∀ d ∈ [c, c.toUpper], isWhiteSpace d = false ∧ d ≠ ',' := by
  have hlt : c.toNat < 0x80 := by
    rw [isNameChar, Bool.or_eq_true, Bool.or_eq_true, beq_iff_eq, isLower_iff,
      Char.isDigit_iff_toNat] at h
    rcases h with (⟨-, hlast⟩ | ⟨-, hlast⟩) | rfl
    · omega
    · exact Nat.lt_of_le_of_lt hlast (by decide)
    · decide
  have hchar : isNameChar c → c.isUpper = false ∧ (isWhiteSpace c = false ∧ c ≠ ',') ∧
      isWhiteSpace c.toUpper = false ∧ c.toUpper ≠ ',' :=
    forall_codes (P := fun c => isNameChar c → c.isUpper = false ∧
      (isWhiteSpace c = false ∧ c ≠ ',') ∧ isWhiteSpace c.toUpper = false ∧ c.toUpper ≠ ',')
      (by decide +kernel) (Nat.zero_le _) hlt
  obtain ⟨hupper, hown, hcapital⟩ := hchar h
  refine ⟨hlt, hupper, fun d hd => ?_⟩
  rcases List.mem_pair.1 hd with rfl | rfl
  · exact hown
  · exact hcapital

/-- The capital of a small letter is a capital, and its lower case is the letter. -/
theorem toUpper_of_isLower {c : Char} (h : c.isLower) :
    c.toUpper.isUpper ∧ c.toUpper.toLower = c := by
  obtain ⟨hfirst, hlast⟩ := isLower_iff.1 h
  exact forall_codes (P := fun c => c.toUpper.isUpper ∧ c.toUpper.toLower = c) (by decide)
    hfirst (Nat.lt_succ_of_le hlast)

/-- A character of a name is left as it is by lower casing. -/
theorem lowerAfter_cons_of_isNameChar {c : Char} (h : isNameChar c) (before rest : List Char) :
    lowerAfter before (c :: rest) = c :: lowerAfter (c :: before) rest := by
  obtain ⟨hlt, hupper, -⟩ := isNameChar_cases h
  have hsigma : c ≠ 'Σ' := by
    rintro rfl
    contradiction
  exact lowerAfter_cons_of_lowerChar hsigma (lowerChar_of_ascii hlt hupper) before rest

/-- A capital of ASCII is lowered to its small letter. -/
theorem lowerAfter_cons_toUpper {c : Char} (h : c.isLower) (before rest : List Char) :
    lowerAfter before (c.toUpper :: rest) = c :: lowerAfter (c.toUpper :: before) rest := by
  obtain ⟨hupper, hlower⟩ := toUpper_of_isLower h
  have hsigma : c.toUpper ≠ 'Σ' := by
    intro hsigma
    rw [hsigma] at hupper
    contradiction
  have hown := (lowerChar_of_isUpper hupper).1
  rw [hlower] at hown
  exact lowerAfter_cons_of_lowerChar hsigma hown before rest

/-! ## White space around a key -/

/-- White space around a key is trimmed. -/
theorem trim_append_blanks {before after : List Char} (hbefore : ∀ c ∈ before, isWhiteSpace c)
    (hafter : ∀ c ∈ after, isWhiteSpace c) (key : List Char) :
    trim (before ++ key ++ after) = trim key := by
  have hend (text : List Char) : trimEnd (text ++ after) = trimEnd text := by
    rw [trimEnd, List.reverse_append, List.dropWhile_append_of_pos (by simpa using hafter), trimEnd]
  rw [trim, List.append_assoc, List.dropWhile_append_of_pos hbefore, List.dropWhile_append]
  split
  · next hempty =>
      have hkey : key.dropWhile isWhiteSpace = [] := List.isEmpty_iff.1 hempty
      have hnone : after.dropWhile isWhiteSpace = [] := List.dropWhile_eq_nil_iff.2 hafter
      rw [trim, hkey, hnone]
  · rw [hend, trim]

/-- A key with white space around it is spelled as the key. -/
theorem spell_append_blanks {before after : List Char} (hbefore : ∀ c ∈ before, isWhiteSpace c)
    (hafter : ∀ c ∈ after, isWhiteSpace c) (key : List Char) :
    spell (before ++ key ++ after) = spell key := by
  rw [spell, trim_append_blanks hbefore hafter, spell]

/-! ## Camel case -/

/-- The characters in camel case are those of the name and their capitals. -/
theorem exists_of_mem_camel {name : List Char} {d : Char} (h : d ∈ camel name) :
    ∃ c ∈ name, d ∈ [c, c.toUpper] := by
  induction name using camel.induct with
  | case1 c rest ih =>
      rw [camel] at h
      rcases List.mem_cons.1 h with rfl | hrest
      · exact ⟨c, by simp, by simp⟩
      · obtain ⟨other, hother, hd⟩ := ih hrest
        exact ⟨other, by simp [hother], hd⟩
  | case2 c rest hplain ih =>
      rw [camel.eq_2 c rest hplain] at h
      rcases List.mem_cons.1 h with rfl | hrest
      · exact ⟨d, by simp, by simp⟩
      · obtain ⟨other, hother, hd⟩ := ih hrest
        exact ⟨other, by simp [hother], hd⟩
  | case3 => contradiction

/-- Hyphens and lower casing undo camel case. -/
theorem lowerAfter_hyphenate_camel {name : List Char} (hchars : ∀ c ∈ name, isNameChar c)
    (hletters : ∀ i, name[i]? = some '-' → ∃ c ∈ name[i + 1]?, c.isLower)
    (before : List Char) : lowerAfter before (hyphenate (camel name)) = name := by
  induction name using camel.induct generalizing before with
  | case1 c rest ih =>
      have hletter : c.isLower := by
        obtain ⟨letter, hhead, hletter⟩ := hletters 0 rfl
        rwa [← Option.some.inj hhead] at hletter
      have hrest : lowerAfter (c.toUpper :: '-' :: before) (hyphenate (camel rest)) = rest := by
        apply ih
        · exact fun d hd => hchars d (by simp [hd])
        · exact fun i hi => hletters (i + 2) hi
      rw [camel, hyphenate_cons_of_isUpper (toUpper_of_isLower hletter).1,
        lowerAfter_cons_of_isNameChar (by decide), lowerAfter_cons_toUpper hletter, hrest]
  | case2 c rest hplain ih =>
      have hc := hchars c (by simp)
      have hrest : lowerAfter (c :: before) (hyphenate (camel rest)) = rest := by
        apply ih
        · exact fun d hd => hchars d (by simp [hd])
        · exact fun i hi => hletters (i + 1) hi
      rw [camel.eq_2 c rest hplain, hyphenate_cons (isNameChar_cases hc).2.1,
        lowerAfter_cons_of_isNameChar hc, hrest]
  | case3 => rfl

/-- Where camel case begins with a character that is no capital, the name begins with it. -/
theorem exists_eq_cons_of_camel_eq_cons {name rest : List Char} {d : Char}
    (hletters : ∀ i, name[i]? = some '-' → ∃ c ∈ name[i + 1]?, c.isLower)
    (h : camel name = d :: rest) (hd : d.isUpper = false) :
    ∃ others, name = d :: others ∧ camel others = rest := by
  cases name using camel.fun_cases with
  | case1 c others =>
      obtain ⟨letter, hhead, hletter⟩ := hletters 0 rfl
      obtain rfl := Option.some.inj hhead
      rw [camel] at h
      rw [← (List.cons.inj h).1, (toUpper_of_isLower hletter).1] at hd
      contradiction
  | case2 c others hplain =>
      rw [camel.eq_2 c others hplain] at h
      obtain ⟨rfl, hrest⟩ := List.cons.inj h
      exact ⟨others, rfl, hrest⟩
  | case3 => contradiction

/-! ## Spellings of a name -/

/-- A text without white space is trimmed. -/
theorem trim_of_forall {text : List Char} (h : ∀ c ∈ text, isWhiteSpace c = false) :
    trim text = text :=
  trim_eq_self (fun c hc => h c (List.mem_of_mem_head? hc))
    fun c hc => h c (List.mem_of_getLast? hc)

namespace IsName

variable {name : List Char}

/-- A name is its own spelling. -/
theorem isSpelled (h : IsName name) : IsSpelled name where
  head c hc := ((isNameChar_cases (h.chars c (List.mem_of_mem_head? hc))).2.2 c (by simp)).1
  last c hc := ((isNameChar_cases (h.chars c (List.mem_of_getLast? hc))).2.2 c (by simp)).1
  capitals c hc := (isNameChar_cases (h.chars c hc)).2.1
  vendor := h.vendor
  lowered := by
    apply lower_eq_self
    intro c hc
    obtain ⟨hlt, hupper, -⟩ := isNameChar_cases (h.chars c hc)
    refine ⟨?_, lowerChar_of_ascii hlt hupper⟩
    rintro rfl
    contradiction

/-- Neither white space nor a comma is in camel case. -/
theorem visible_camel (h : IsName name) {d : Char} (hd : d ∈ camel name) :
    isWhiteSpace d = false ∧ d ≠ ',' := by
  obtain ⟨c, hc, hcase⟩ := exists_of_mem_camel hd
  exact (isNameChar_cases (h.chars c hc)).2.2 d hcase

/-- Camel case does not begin with the vendor letters. -/
theorem not_vendor_camel (h : IsName name) : ¬ ['m', 's'] <+: camel name := by
  rintro ⟨rest, hrest⟩
  obtain ⟨others, rfl, hothers⟩ := exists_eq_cons_of_camel_eq_cons h.letters hrest.symm rfl
  obtain ⟨last, rfl, -⟩ := exists_eq_cons_of_camel_eq_cons
    (fun i hi => h.letters (i + 1) hi) hothers rfl
  exact h.vendor (List.prefix_append ['m', 's'] last)

/-- The spelling of camel case is the name. -/
theorem spell_camel (h : IsName name) : spell (camel name) = name := by
  have htrim : trim (camel name) = camel name :=
    trim_of_forall fun d hd => (h.visible_camel hd).1
  rcases spell_cases (camel name) with ⟨hvendor, -⟩ | ⟨-, hspell⟩
  · rw [htrim] at hvendor
    exact absurd hvendor h.not_vendor_camel
  · rw [hspell, htrim, lower, lowerAfter_hyphenate_camel h.chars h.letters]

/-- A name with vendor letters, in camel case. -/
theorem camel_vendor (rest : List Char) :
    camel ('-' :: 'm' :: 's' :: rest) = 'M' :: 's' :: camel rest := by
  rw [camel, camel.eq_2 's' rest (by simp)]
  rfl

/-- With a small first letter the same name begins with the vendor letters, and nothing of it is
white space or a comma. -/
theorem visible_uncapitalize_camel (h : IsName name) (hvendor : ['-', 'm', 's'] <+: name) {d : Char}
    (hd : d ∈ uncapitalize (camel name)) : isWhiteSpace d = false ∧ d ≠ ',' := by
  obtain ⟨rest, rfl⟩ := hvendor
  have hcamel : camel (['-', 'm', 's'] ++ rest) = 'M' :: 's' :: camel rest := camel_vendor rest
  rw [hcamel, uncapitalize] at hd
  rcases List.mem_cons.1 hd with rfl | hothers
  · decide
  · apply h.visible_camel
    rw [hcamel]
    exact List.mem_cons_of_mem 'M' hothers

/-- Vendor letters without their hyphen get it back. -/
theorem spell_uncapitalize_camel (h : IsName name) (hvendor : ['-', 'm', 's'] <+: name) :
    spell (uncapitalize (camel name)) = name := by
  have htrim : trim (uncapitalize (camel name)) = uncapitalize (camel name) :=
    trim_of_forall fun d hd => (h.visible_uncapitalize_camel hvendor hd).1
  obtain ⟨rest, rfl⟩ := hvendor
  have hkey : uncapitalize (camel (['-', 'm', 's'] ++ rest)) = 'm' :: 's' :: camel rest :=
    congrArg uncapitalize (camel_vendor rest)
  rw [hkey] at htrim ⊢
  rcases spell_cases ('m' :: 's' :: camel rest) with ⟨-, hspell⟩ | ⟨hvendor, -⟩
  · have hrest (before : List Char) : lowerAfter before (hyphenate (camel rest)) = rest := by
      apply lowerAfter_hyphenate_camel
      · exact fun c hc => h.chars c (by simp [hc])
      · exact fun i hi => h.letters (i + 3) hi
    rw [hspell, htrim, hyphenate_cons rfl, hyphenate_cons rfl, lower,
      lowerAfter_cons_of_isNameChar rfl, lowerAfter_cons_of_isNameChar rfl,
      lowerAfter_cons_of_isNameChar rfl, hrest]
    rfl
  · rw [htrim] at hvendor
    exact absurd (List.prefix_append ['m', 's'] (camel rest)) hvendor

/-- However a name is written, its spelling is the name. -/
theorem spell_of_spells (h : IsName name) {key : List Char} (hkey : Spells name key) :
    spell key = name := by
  induction hkey with
  | kebab => exact h.isSpelled.spell_eq
  | camel => exact h.spell_camel
  | vendor hvendor => exact h.spell_uncapitalize_camel hvendor
  | blanks _ hbefore hafter ih => rw [spell_append_blanks hbefore hafter, ih]

/-- However a name is written, no comma is in it. -/
theorem comma_notMem_of_spells (h : IsName name) {key : List Char} (hkey : Spells name key) :
    ',' ∉ key := by
  induction hkey with
  | kebab => exact fun hcomma => absurd (h.chars _ hcomma) (by decide)
  | camel => exact fun hcomma => (h.visible_camel hcomma).2 rfl
  | vendor hvendor => exact fun hcomma => (h.visible_uncapitalize_camel hvendor hcomma).2 rfl
  | blanks _ hbefore hafter ih =>
      intro hcomma
      rcases List.mem_append.1 hcomma with hfront | hback
      · rcases List.mem_append.1 hfront with hblank | hkey
        · exact absurd (hbefore _ hblank) (by decide)
        · exact ih hkey
      · exact absurd (hafter _ hback) (by decide)

end IsName

end Key

open Key

/-- Every way to write a name as a key is spelled as the name, in camel case or not, with or without
the hyphen of the vendor, and with white space around. So the entries of a block ask for the same
under each of them: a leaf asks for the atom of the name, and it is the name that is looked up among
the unit-less properties. -/
theorem Block.requests_of_spells {name key : List Char} (h : IsName name) (hkey : Spells name key) :
    Key.normalize (String.ofList key) = String.ofList name ∧
      (Property.unitless.contains (Key.normalize (String.ofList key)) =
        Property.unitless.contains (String.ofList name)) ∧
      (∀ scope value rest, Block.requestsOfEntries scope ((String.ofList key, value) :: rest) =
        Block.requestsOfEntries scope ((String.ofList name, value) :: rest)) ∧
      ∀ scope value leaf, value.isBlank = false → value.scalar? = some leaf →
        Block.requestsOfEntries scope [(String.ofList key, value)] =
          [.atom (scope.atom (String.ofList name) leaf)] := by
  have hnormal : Key.normalize (String.ofList key) = String.ofList name := by
    rw [Key.normalize, String.toList_ofList, h.spell_of_spells hkey]
  have hpieces {written : List Char} (hwritten : Spells name written) :
      pieces (String.ofList written) = [String.ofList name] := by
    have hcomma : ',' ∉ (String.ofList written).toList := by
      rw [String.toList_ofList]
      exact h.comma_notMem_of_spells hwritten
    rw [pieces_eq_singleton hcomma, Key.normalize, String.toList_ofList, h.spell_of_spells hwritten]
  refine ⟨hnormal, by rw [hnormal], ?_, ?_⟩
  · intro scope value rest
    rw [requestsOfEntries, requestsOfEntries, hpieces hkey, hpieces .kebab]
  · intro scope value leaf hblank hleaf
    rw [requestsOfEntries, hpieces hkey, hblank]
    simp [Value.requests_of_scalar? hleaf]

/-- The spelling of a vendor's property with a small first letter, with white space around. -/
theorem Block.requests_of_spells_ms :
    let name := "-ms-flex-order".toList
    let key := "\u3000msFlexOrder\n".toList
    IsName name ∧ Spells name key ∧ Key.normalize "\u3000msFlexOrder\n" = "-ms-flex-order" ∧
      Property.unitless.contains (Key.normalize "\u3000msFlexOrder\n") = true ∧
      Block.requestsOfEntries Scope.root [("\u3000msFlexOrder\n", .number (.ofInt 2))] =
        [.atom ⟨none, [], "-ms-flex-order", "2"⟩] := by
  intro name key
  have hname : IsName name := by decide +kernel
  have hcamel : Spells name "msFlexOrder".toList := .vendor (by decide)
  have hkey : Spells name (['\u3000'] ++ "msFlexOrder".toList ++ ['\n']) :=
    .blanks hcamel (List.forall_mem_singleton.2 rfl) (List.forall_mem_singleton.2 rfl)
  obtain ⟨hnormal, hunitless, -, hrequests⟩ := Block.requests_of_spells hname hkey
  refine ⟨hname, hkey, hnormal, hunitless.trans (by decide +kernel), ?_⟩
  exact (hrequests Scope.root (.number (.ofInt 2)) _ rfl rfl).trans (by decide +kernel)

end AtomicRules

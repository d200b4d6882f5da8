import AtomicRules.Proofs.Json.Acceptance
import AtomicRules.Proofs.Insertion

/-!
# Blocks spelled as JSON

Nested pairs with whole numbers, and the document that spells them. However such a document is
written, reading it gives the block that inserting the pairs one after the other gives
(`Block.read_spelled`), with every whole number rounded to the nearest binary64 number. A block
whose keys are all different comes back with its entries in order.
-/

namespace AtomicRules

/-! ## Drafts -/

/-- A whole number of 64 bits, with or without a sign. -/
structure WholeNumber where
  value : Int
  ge : -0x8000000000000000 ≤ value
  le : value ≤ 0xffffffffffffffff

/-- A value as it is written down, with all pairs of a block, repeated keys included. -/
inductive Draft where
  | null
  | bool (value : Bool)
  | text (value : String)
  | integer (number : WholeNumber)
  | list (items : List Draft)
  | block (pairs : List (String × Draft))

namespace Draft

/-- The decimal literal of a whole number. -/
def literal (n : Int) : Json.Numeral where
  negative := n < 0
  whole := if n = 0 then [0] else Text.Radix.digits 10 n.natAbs
  fraction := []
  exponent := 0

mutual

/-- The document of a draft. -/
def document : Draft → Json
  | .null => .null
  | .bool value => .bool value
  | .text value => .string value
  | .integer number => .number (literal number.value)
  | .list items => .array (documentsOfItems items)
  | .block pairs => .object (documentsOfPairs pairs)

/-- The documents of items. -/
def documentsOfItems : List Draft → List Json
  | [] => []
  | item :: rest => document item :: documentsOfItems rest

/-- The documents of pairs with their keys. -/
def documentsOfPairs : List (String × Draft) → List (String × Json)
  | [] => []
  | (key, item) :: rest => (key, document item) :: documentsOfPairs rest

end

variable (build : List (String × Value) → Block)

mutual

/-- The value of a draft, given how a block is built from pairs. -/
def value : Draft → Value
  | .null => .null
  | .bool value => .bool value
  | .text value => .text value
  | .integer number => .number (.ofInt number.value)
  | .list items => .list (valuesOfItems items)
  | .block pairs => .block (build (valuesOfPairs pairs))

/-- The values of items. -/
def valuesOfItems : List Draft → List Value
  | [] => []
  | item :: rest => value item :: valuesOfItems rest

/-- The values of pairs with their keys. -/
def valuesOfPairs : List (String × Draft) → List (String × Value)
  | [] => []
  | (key, item) :: rest => (key, value item) :: valuesOfPairs rest

end

mutual

/-- No block in the draft has a key twice. -/
def Distinct : Draft → Prop
  | .null | .bool _ | .text _ | .integer _ => True
  | .list items => DistinctItems items
  | .block pairs => (Entries.keys pairs).Nodup ∧ DistinctPairs pairs

/-- No block in the items has a key twice. -/
def DistinctItems : List Draft → Prop
  | [] => True
  | item :: rest => Distinct item ∧ DistinctItems rest

/-- No block in the values of the pairs has a key twice. -/
def DistinctPairs : List (String × Draft) → Prop
  | [] => True
  | (_, item) :: rest => Distinct item ∧ DistinctPairs rest

end

/-- What holds of a list when it holds of the items, of a block when it holds of the values in it,
and of everything else, holds of all drafts. -/
@[elab_as_elim]
theorem induction {motive : Draft → Prop} (null : motive .null)
    (bool : ∀ value, motive (.bool value)) (text : ∀ value, motive (.text value))
    (integer : ∀ number, motive (.integer number))
    (list : ∀ items : List Draft, (∀ item ∈ items, motive item) → motive (.list items))
    (block : ∀ pairs : List (String × Draft),
      (∀ pair ∈ pairs, motive pair.2) → motive (.block pairs)) (draft : Draft) : motive draft :=
  @Draft.rec motive (fun items => ∀ item ∈ items, motive item)
    (fun pairs => ∀ pair ∈ pairs, motive pair.2) (fun pair => motive pair.2)
    null bool text integer (fun items ih => list items ih) (fun pairs ih => block pairs ih)
    (fun _ hitem => nomatch hitem)
    (fun _ _ hhead htail => List.forall_mem_cons.2 ⟨hhead, htail⟩)
    (fun _ hpair => nomatch hpair)
    (fun _ _ hhead htail => List.forall_mem_cons.2 ⟨hhead, htail⟩)
    (fun _ _ hvalue => hvalue) draft

end Draft

/-! ## Whole numbers -/

namespace Binary64

/-- A magnitude times one stays as it is. -/
theorem product_powerOfTen_zero {magnitude : Nat} (h : magnitude ≤ infinity) :
    product magnitude (powerOfTen 0) = magnitude := by
  have hone : units (powerOfTen 0) = 1 <<< 1074 := by decide +kernel
  rw [product, hone, one_shiftLeft_add 1074, nearest_mul_right (one_shiftLeft_pos 1074),
    nearest_units h]

/-- A coefficient that is taken as it stands is rounded once. -/
theorem scaled_zero {coefficient : Nat} (h : coefficient < limit) :
    scaled coefficient 0 = some (nearest coefficient 1) := by
  have hfinite := (nearest_one_lt_iff coefficient).2 h
  show scaleUp (nearest coefficient 1) 0 = _
  rw [scaleUp, if_pos (Nat.zero_le maxPower), product_powerOfTen_zero hfinite.le,
    Option.filter_some, if_pos (decide_eq_true hfinite)]

end Binary64

namespace Draft

/-- The shortest decimal text of a whole number spells its literal. -/
theorem number_literal (n : Int) : Json.Grammar.Number (literal n)
    ((if n < 0 then ['-'] else []) ++ Text.Radix.numeral 10 n.natAbs) := by
  have hwhole : Json.Grammar.Whole (literal n).whole (Text.Radix.numeral 10 n.natAbs) := by
    unfold literal Text.Radix.numeral
    by_cases hzero : n = 0
    · subst hzero
      exact ⟨⟨by simp, by simp, rfl⟩, fun _ => rfl⟩
    · rw [if_neg hzero, if_neg (by omega)]
      exact ⟨⟨Text.Radix.digits_ne_nil (by decide) (by omega),
        fun _ => Text.Radix.lt_of_mem_digits (by decide), rfl⟩,
        fun hhead => absurd hhead (Text.Radix.head?_digits_ne_zero (by decide))⟩
  by_cases hnegative : n < 0
  · rw [if_pos hnegative]
    have hnumber := Json.Grammar.Number.negative hwhole .absent .absent
    simpa [literal, hnegative] using hnumber
  · rw [if_neg hnegative]
    have hnumber := Json.Grammar.Number.positive hwhole .absent .absent
    simpa [literal, hnegative] using hnumber

/-- The digits of the literal have the size of the number. -/
theorem value_whole_literal (n : Int) : Text.Radix.value 10 (literal n).whole = n.natAbs := by
  unfold literal
  split
  · next hzero => rw [hzero]; rfl
  · exact Text.Radix.value_digits (by decide) n.natAbs

/-- The literal of a whole number of 64 bits stands for the nearest binary64 number. -/
theorem toBinary64?_literal (number : WholeNumber) :
    (literal number.value).toBinary64? = some (Binary64.ofInt number.value) := by
  have hvalue : Text.Radix.value 10
      ((literal number.value).whole ++ (literal number.value).fraction) = number.value.natAbs := by
    rw [show (literal number.value).fraction = [] from rfl, List.append_nil, value_whole_literal]
  have hfits : number.value.natAbs ≤ Json.Numeral.maxCoefficient := by
    have hge := number.ge
    have hle := number.le
    unfold Json.Numeral.maxCoefficient
    omega
  have hparts : (literal number.value).parts = (number.value.natAbs, 0) := by
    rw [Json.Numeral.parts_of_le (hvalue.trans_le hfits), hvalue]
    rfl
  have hlt := Json.Numeral.parts_fst_lt (literal number.value)
  have hscaled : Binary64.scaled (literal number.value).parts.1 (literal number.value).parts.2 =
      some (Binary64.nearest number.value.natAbs 1) := by
    rw [hparts] at hlt ⊢
    exact Binary64.scaled_zero hlt
  unfold Json.Numeral.toBinary64?
  split
  · next hnone => cases hscaled.symm.trans hnone
  · next magnitude hsome =>
      cases hscaled.symm.trans hsome
      rfl

/-- The values of items, if each of them has one. -/
theorem itemsToValues?_documents {items : List Draft}
    (h : ∀ item ∈ items, item.document.toValue? = some (item.value Block.ofList)) :
    Json.itemsToValues? (documentsOfItems items) = some (valuesOfItems Block.ofList items) := by
  induction items with
  | nil => rfl
  | cons item rest ih =>
      rw [List.forall_mem_cons] at h
      simp [documentsOfItems, Json.itemsToValues?, valuesOfItems, h.1, ih h.2]

/-- The values of members, if each of them has one. -/
theorem membersToEntries?_documents {pairs : List (String × Draft)}
    (h : ∀ pair ∈ pairs, pair.2.document.toValue? = some (pair.2.value Block.ofList)) :
    Json.membersToEntries? (documentsOfPairs pairs) = some (valuesOfPairs Block.ofList pairs) := by
  induction pairs with
  | nil => rfl
  | cons pair rest ih =>
      rw [List.forall_mem_cons] at h
      simp [documentsOfPairs, Json.membersToEntries?, valuesOfPairs, h.1, ih h.2]

/-- The document of a draft has the value in which every block is built by insertion. -/
theorem toValue?_document (draft : Draft) :
    draft.document.toValue? = some (draft.value Block.ofList) := by
  induction draft using Draft.induction with
  | null | bool | text => rfl
  | integer number =>
      rw [document, Json.toValue?, toBinary64?_literal]
      rfl
  | list items ih =>
      rw [document, Json.toValue?, itemsToValues?_documents ih]
      rfl
  | block pairs ih =>
      rw [document, Json.toValue?, membersToEntries?_documents ih]
      rfl

theorem valuesOfItems_eq_map (build : List (String × Value) → Block) (items : List Draft) :
    valuesOfItems build items = items.map (value build) := by
  induction items with
  | nil => rfl
  | cons item rest ih => rw [valuesOfItems, ih, List.map_cons]

theorem valuesOfPairs_eq_map (build : List (String × Value) → Block)
    (pairs : List (String × Draft)) :
    valuesOfPairs build pairs = pairs.map fun pair => (pair.1, pair.2.value build) := by
  induction pairs with
  | nil => rfl
  | cons pair rest ih => rw [valuesOfPairs, ih, List.map_cons]

theorem distinctItems_iff {items : List Draft} :
    DistinctItems items ↔ ∀ item ∈ items, item.Distinct := by
  induction items with
  | nil => simp [DistinctItems]
  | cons item rest ih => rw [DistinctItems, ih, List.forall_mem_cons]

theorem distinctPairs_iff {pairs : List (String × Draft)} :
    DistinctPairs pairs ↔ ∀ pair ∈ pairs, pair.2.Distinct := by
  induction pairs with
  | nil => simp [DistinctPairs]
  | cons pair rest ih => rw [DistinctPairs, ih, List.forall_mem_cons]

/-- Without repeated keys a block is its pairs as they stand. -/
theorem value_ofList_eq_value_mk (draft : Draft) (h : draft.Distinct) :
    draft.value Block.ofList = draft.value Block.mk := by
  induction draft using Draft.induction with
  | null | bool | text | integer => rfl
  | list items ih =>
      rw [Distinct, distinctItems_iff] at h
      rw [value, value, valuesOfItems_eq_map, valuesOfItems_eq_map]
      exact congrArg Value.list (List.map_congr_left fun item hitem => ih item hitem (h item hitem))
  | block pairs ih =>
      rw [Distinct, distinctPairs_iff] at h
      obtain ⟨hkeys, hpairs⟩ := h
      have hvalues : valuesOfPairs Block.ofList pairs = valuesOfPairs Block.mk pairs := by
        rw [valuesOfPairs_eq_map, valuesOfPairs_eq_map]
        exact List.map_congr_left fun pair hpair => by rw [ih pair hpair (hpairs pair hpair)]
      have hsame : Entries.keys (valuesOfPairs Block.mk pairs) = Entries.keys pairs := by
        rw [valuesOfPairs_eq_map, Entries.keys, List.map_map]
        rfl
      rw [value, value, hvalues, Block.ofList_of_nodup (hsame ▸ hkeys)]

end Draft

/-- However the document of a draft is spelled, reading it gives the block that its pairs build, one
inserted after the other. A repeated key has its first place and its last value, and a draft without
repeated keys comes back with its pairs as they stand. -/
theorem Block.read_spelled {pairs : List (String × Draft)} {source : String}
    (hdepth : (Draft.block pairs).document.depth ≤ Json.maxDepth)
    (hspelled : Json.Grammar.Document (Draft.block pairs).document source) :
    Block.read source = .ok (Block.ofList (Draft.valuesOfPairs Block.ofList pairs)) ∧
      (∀ given, Entries.keys (Block.ofList given).entries = (Entries.keys given).eraseDups ∧
        ∀ key, (Block.ofList given).get? key = Entries.lookup key given.reverse) ∧
      ((Draft.block pairs).Distinct →
        Block.read source = .ok ⟨Draft.valuesOfPairs Block.mk pairs⟩) := by
  have hread : Block.read source = .ok (Block.ofList (Draft.valuesOfPairs Block.ofList pairs)) := by
    rw [Block.read, Json.read_eq_some_iff.2 ⟨hspelled, hdepth⟩, Option.bind_some,
      Draft.toValue?_document]
    rfl
  refine ⟨hread, fun given => ⟨keys_ofList given, get?_ofList given⟩, fun hdistinct => ?_⟩
  have hvalue := Draft.value_ofList_eq_value_mk _ hdistinct
  rw [Draft.value, Draft.value] at hvalue
  rw [hread, Value.block.inj hvalue]

/-- Four small hexadecimal digits are a code unit. -/
theorem Json.Grammar.codeUnit_of_digits {d₁ d₂ d₃ d₄ : Nat}
    (h : d₁ < 16 ∧ d₂ < 16 ∧ d₃ < 16 ∧ d₄ < 16) :
    CodeUnit (Text.Radix.value 16 [d₁, d₂, d₃, d₄])
      ([d₁, d₂, d₃, d₄].map Text.Radix.digitChar) :=
  .mk ⟨h.1, .inl rfl⟩ ⟨h.2.1, .inl rfl⟩ ⟨h.2.2.1, .inl rfl⟩ ⟨h.2.2.2, .inl rfl⟩

/-- A character that needs no escape spells a text of its own. -/
theorem Json.Grammar.quoted_raw (c : Char) (h : 0x20 ≤ c.toNat ∧ c ≠ '"' ∧ c ≠ '\\') :
    Quoted (String.ofList [c]) ['"', c, '"'] :=
  .mk (by rw [String.toList_ofList]; exact .cons (.raw h.1 h.2.1 h.2.2) .nil)

open Json.Grammar in
/-- A text with blanks, escapes, a pair of surrogates and a key that comes back, and one with keys
that are all different. -/
theorem Block.read_spelled_samples :
    Block.read "\x7b \"n\":-9007199254740993,\"\\ud83d\\ude00\" :[true ],\n\"\\u006e\":0\x7d" =
        .ok ⟨[("n", .number (.ofInt 0)), ("😀", .list [.bool true])]⟩ ∧
      Block.read "\x7b\"b\":9007199254740993,\"a\":null\x7d" =
        .ok ⟨[("b", .number (.ofInt 9007199254740993)), ("a", .null)]⟩ := by
  have hnone : Blanks [] := List.forall_mem_nil _
  constructor
  · have hspace : Blanks [' '] := by simp [Blanks]
    have hline : Blanks ['\n'] := by simp [Blanks]
    have hescaped : Quoted (String.ofList ['n']) _ := .mk (by
      rw [String.toList_ofList]
      exact .cons (.unit (@codeUnit_of_digits 0 0 6 14 (by decide))) .nil)
    have hpair : Quoted (String.ofList ['😀']) _ := .mk (by
      rw [String.toList_ofList]
      exact .cons (.pair (@codeUnit_of_digits 13 8 3 13 (by decide)) (by decide)
        (@codeUnit_of_digits 13 14 0 0 (by decide)) (by decide) (by decide)) .nil)
    have hfirst := Member.mk hspace (quoted_raw 'n' (by decide)) hnone
      (.mk hnone (.number (Draft.number_literal (-9007199254740993))))
    have hsecond := Member.mk hnone hpair hspace
      (.mk hnone (.array (.one (.mk hnone .true) hspace)))
    have hthird := Member.mk hline hescaped hnone (.mk hnone (.number (Draft.number_literal 0)))
    have hmembers := Items.more hfirst hnone (.more hsecond hnone (.one hthird hnone))
    have hdocument : Document (Draft.block [
        ("n", .integer ⟨-9007199254740993, by decide, by decide⟩),
        ("😀", .list [.bool true]), ("n", .integer ⟨0, by decide, by decide⟩)]).document
          "\x7b \"n\":-9007199254740993,\"\\ud83d\\ude00\" :[true ],\n\"\\u006e\":0\x7d" :=
      .mk (.mk hnone (.object hmembers)) hnone (by decide +kernel)
    exact (Block.read_spelled (by decide) hdocument).1
  · have hfirst := Member.mk hnone (quoted_raw 'b' (by decide)) hnone
      (.mk hnone (.number (Draft.number_literal 9007199254740993)))
    have hsecond := Member.mk hnone (quoted_raw 'a' (by decide)) hnone (.mk hnone .null)
    have hmembers := Items.more hfirst hnone (.one hsecond hnone)
    have hdocument : Document (Draft.block
        [("b", .integer ⟨9007199254740993, by decide, by decide⟩), ("a", .null)]).document
          "\x7b\"b\":9007199254740993,\"a\":null\x7d" :=
      .mk (.mk hnone (.object hmembers)) hnone (by decide +kernel)
    refine (Block.read_spelled (by decide) hdocument).2.2 ?_
    simp [Draft.Distinct, Draft.DistinctPairs, Entries.keys]

end AtomicRules

import AtomicRules.Proofs.Json.Documents
import AtomicRules.Proofs.Json.Overflow
import AtomicRules.Style.Source

/-!
# Which texts are accepted

A text gives a block exactly when it is one document of the grammar, nests at most 127 levels, holds
no number that is too large and has an object as its root. Every other root is reported by its
kind, and every other text is malformed (`Block.read_outcomes`).
-/

namespace AtomicRules

namespace Json

/-- The kind of style value that a document gives. -/
def kind : Json → Kind
  | .null => .null
  | .bool _ => .boolean
  | .number _ => .number
  | .string _ => .text
  | .array _ => .list
  | .object _ => .object

/-- A document of the text that nests no deeper than allowed and holds no number that is too
large. -/
structure Accepted (root : Json) (source : String) : Prop where
  document : Grammar.Document root source
  depth_le : root.depth ≤ maxDepth
  not_overflows : ∀ literal ∈ root.numerals, ¬literal.Overflows

/-! ## Documents that have a style value -/

theorem itemsToValues?_eq_none_iff {items : List Json} :
    itemsToValues? items = none ↔ ∃ item ∈ items, item.toValue? = none := by
  induction items with
  | nil => simp [itemsToValues?]
  | cons item rest ih =>
      simp only [itemsToValues?, List.exists_mem_cons_iff, ← ih]
      cases item.toValue? <;> cases itemsToValues? rest <;> simp

theorem membersToEntries?_eq_none_iff {members : List (String × Json)} :
    membersToEntries? members = none ↔ ∃ member ∈ members, member.2.toValue? = none := by
  induction members with
  | nil => simp [membersToEntries?]
  | cons member rest ih =>
      simp only [membersToEntries?, List.exists_mem_cons_iff, ← ih]
      cases member.2.toValue? <;> cases membersToEntries? rest <;> simp

/-- A document has a style value unless one of its numbers is too large. -/
theorem toValue?_eq_none_iff (root : Json) :
    root.toValue? = none ↔ ∃ literal ∈ root.numerals, literal.Overflows := by
  induction root using Json.induction with
  | null => simp [toValue?, numerals]
  | bool => simp [toValue?, numerals]
  | string => simp [toValue?, numerals]
  | number literal => simp [toValue?, numerals, Numeral.toBinary64?_eq_none_iff]
  | array items ih =>
      simp only [toValue?, Option.map_eq_none_iff, itemsToValues?_eq_none_iff, numerals,
        mem_numeralsOfItems_iff]
      constructor
      · rintro ⟨item, hitem, hnone⟩
        obtain ⟨literal, hliteral, hlarge⟩ := (ih item hitem).1 hnone
        exact ⟨literal, ⟨item, hitem, hliteral⟩, hlarge⟩
      · rintro ⟨literal, ⟨item, hitem, hliteral⟩, hlarge⟩
        exact ⟨item, hitem, (ih item hitem).2 ⟨literal, hliteral, hlarge⟩⟩
  | object members ih =>
      simp only [toValue?, Option.map_eq_none_iff, membersToEntries?_eq_none_iff, numerals,
        mem_numeralsOfMembers_iff]
      constructor
      · rintro ⟨member, hmember, hnone⟩
        obtain ⟨literal, hliteral, hlarge⟩ := (ih member hmember).1 hnone
        exact ⟨literal, ⟨member, hmember, hliteral⟩, hlarge⟩
      · rintro ⟨literal, ⟨member, hmember, hliteral⟩, hlarge⟩
        exact ⟨member, hmember, (ih member hmember).2 ⟨literal, hliteral, hlarge⟩⟩

/-- The style value of a document has its kind. -/
theorem kind_of_toValue? {root : Json} {value : Value} (h : root.toValue? = some value) :
    value.kind = root.kind := by
  cases root with
  | null | bool | string => cases h; rfl
  | number | array | object =>
      obtain ⟨_, -, rfl⟩ := Option.map_eq_some_iff.1 h
      rfl

/-- The documents that are accepted are the ones that are read and have a style value. -/
theorem accepted_iff {root : Json} {source : String} :
    Accepted root source ↔
      read maxDepth source = some root ∧ ∃ value, root.toValue? = some value := by
  rw [read_eq_some_iff, ← Option.ne_none_iff_exists', Ne, toValue?_eq_none_iff]
  constructor
  · rintro ⟨hdocument, hdepth, hlarge⟩
    exact ⟨⟨hdocument, hdepth⟩, fun ⟨literal, hliteral, h⟩ => hlarge literal hliteral h⟩
  · rintro ⟨⟨hdocument, hdepth⟩, hlarge⟩
    exact ⟨hdocument, hdepth, fun literal hliteral h => hlarge ⟨literal, hliteral, h⟩⟩

theorem kind_eq_object_iff {root : Json} :
    root.kind = .object ↔ ∃ members, root = .object members := by
  cases root <;> simp [kind]

/-- The digits of a number literal are decimal. -/
theorem Grammar.Number.isDecimal {literal : Numeral} {text : List Char}
    (h : Grammar.Number literal text) : literal.IsDecimal := by
  have hall {whole fraction : List Nat} {front middle : List Char} (hwhole : Whole whole front)
      (hfraction : Fraction fraction middle) : ∀ digit ∈ whole ++ fraction, digit < 10 := by
    refine List.forall_mem_append.2 ⟨hwhole.run.lt_ten, ?_⟩
    cases hfraction with
    | absent => exact List.forall_mem_nil _
    | present hdigits => exact hdigits.lt_ten
  cases h with
  | positive hwhole hfraction => exact hall hwhole hfraction
  | negative hwhole hfraction => exact hall hwhole hfraction

end Json

namespace Block

open Json

/-- An accepted document with an object as its root gives a block. -/
theorem read_of_accepted_object {members : List (String × Json)} {source : String}
    (h : Accepted (.object members) source) : ∃ block, Block.read source = .ok block := by
  obtain ⟨hread, value, hvalue⟩ := accepted_iff.1 h
  obtain ⟨entries, -, rfl⟩ := Option.map_eq_some_iff.1 hvalue
  exact ⟨ofList entries, by rw [Block.read, hread, Option.bind_some, hvalue]⟩

/-- An accepted document with another root is reported by its kind. -/
theorem read_of_accepted_other {root : Json} {source : String} (h : Accepted root source)
    (hkind : root.kind ≠ .object) : Block.read source = .error (.rootNotObject root.kind) := by
  obtain ⟨hread, value, hvalue⟩ := accepted_iff.1 h
  rw [Block.read, hread, Option.bind_some, hvalue]
  rw [← kind_of_toValue? hvalue] at hkind ⊢
  cases value with
  | block => exact absurd rfl hkind
  | _ => rfl

/-- A text without an accepted document is malformed. -/
theorem read_of_not_accepted {source : String} (h : ¬∃ root, Accepted root source) :
    Block.read source = .error .malformed := by
  have hnone : (Json.read maxDepth source).bind toValue? = none := by
    refine Option.eq_none_iff_forall_ne_some.2 fun value hvalue => ?_
    obtain ⟨root, hread, hvalue⟩ := Option.bind_eq_some_iff.1 hvalue
    exact h ⟨root, accepted_iff.2 ⟨hread, value, hvalue⟩⟩
  rw [Block.read, hnone]

/-- The three kinds of texts. -/
theorem read_cases (source : String) :
    (∃ members block, Accepted (.object members) source ∧ Block.read source = .ok block) ∨
      (∃ root, Accepted root source ∧ root.kind ≠ .object ∧
        Block.read source = .error (.rootNotObject root.kind)) ∨
      (¬∃ root, Accepted root source) ∧ Block.read source = .error .malformed := by
  by_cases haccepted : ∃ root, Accepted root source
  · obtain ⟨root, hroot⟩ := haccepted
    by_cases hkind : root.kind = .object
    · obtain ⟨members, rfl⟩ := kind_eq_object_iff.1 hkind
      obtain ⟨block, hread⟩ := read_of_accepted_object hroot
      exact .inl ⟨members, block, hroot, hread⟩
    · exact .inr (.inl ⟨root, hroot, hkind, read_of_accepted_other hroot hkind⟩)
  · exact .inr (.inr ⟨haccepted, read_of_not_accepted haccepted⟩)

/-- What a text gives: a block if its document is accepted and has an object as its root, the kind
of the root if its document is accepted and has another one, and else the report of a malformed
text, whatever stands in it. A number literal that is spelled in the text counts as too large from
one part in `2 ^ 51` above the midpoint after the largest number on, and not up to one part below
it. -/
theorem read_outcomes (source : String) :
    ((∃ block, Block.read source = .ok block) ↔ ∃ members, Accepted (.object members) source) ∧
      (∀ kind, Block.read source = .error (.rootNotObject kind) ↔
        ∃ root, Accepted root source ∧ root.kind = kind ∧ kind ≠ .object) ∧
      (Block.read source = .error .malformed ↔ ¬∃ root, Accepted root source) ∧
      ∀ literal text, Grammar.Number literal text →
        ((2 ^ 51 + 1) * (Binary64.limit : ℚ) ≤ 2 ^ 51 * literal.size → literal.Overflows) ∧
          (2 ^ 51 * literal.size < (2 ^ 51 - 1) * (Binary64.limit : ℚ) → ¬literal.Overflows) := by
  refine ⟨⟨?_, ?_⟩, fun kind => ⟨?_, ?_⟩, ⟨?_, read_of_not_accepted⟩, fun literal text hnumber =>
    ⟨Numeral.overflows_of_le hnumber.isDecimal, Numeral.not_overflows_of_lt hnumber.isDecimal⟩⟩
  · rintro ⟨found, hfound⟩
    rcases read_cases source with ⟨members, block, hroot, -⟩ | ⟨root, -, -, hread⟩ | ⟨-, hread⟩
    · exact ⟨members, hroot⟩
    · cases hread.symm.trans hfound
    · cases hread.symm.trans hfound
  · rintro ⟨members, haccepted⟩
    exact read_of_accepted_object haccepted
  · intro hfound
    rcases read_cases source with ⟨members, block, -, hread⟩ | ⟨root, hroot, hkind, hread⟩ |
      ⟨-, hread⟩
    · cases hread.symm.trans hfound
    · cases hread.symm.trans hfound
      exact ⟨root, hroot, rfl, hkind⟩
    · cases hread.symm.trans hfound
  · rintro ⟨root, haccepted, rfl, hkind⟩
    exact read_of_accepted_other haccepted hkind
  · intro hfound
    rcases read_cases source with ⟨members, block, -, hread⟩ | ⟨root, -, -, hread⟩ | ⟨hnone, -⟩
    · cases hread.symm.trans hfound
    · cases hread.symm.trans hfound
    · exact hnone

/-- A document that is read, by its kind and its literals. -/
theorem document_of_read {source : String} {kind : Kind} {literals : List Numeral}
    (h : (Json.read maxDepth source).map (fun root => (root.kind, root.numerals)) =
      some (kind, literals)) :
    ∃ root, Json.read maxDepth source = some root ∧ Grammar.Document root source ∧
      root.depth ≤ maxDepth ∧ root.kind = kind ∧ root.numerals = literals := by
  obtain ⟨root, hread, heq⟩ := Option.map_eq_some_iff.1 h
  obtain ⟨hdocument, hdepth⟩ := read_eq_some_iff.1 hread
  cases heq
  exact ⟨root, hread, hdocument, hdepth, rfl, rfl⟩

/-- A literal close to the midpoint, by its last digits. -/
def nearLimit (ending : List Nat) : Numeral :=
  ⟨false, [1], [7, 9, 7, 6, 9, 3, 1, 3, 4, 8, 6, 2, 3, 1, 5] ++ ending, 308⟩

/-- The exact sizes of the numbers do not tell which texts are accepted: close to the midpoint, a
smaller number can be refused and a larger one taken. -/
theorem read_near_limit :
    (∃ members, Grammar.Document (.object members) "\x7b\"a\":1.7976931348623158e308\x7d" ∧
      (Json.object members).depth ≤ maxDepth ∧
      (∀ literal ∈ (Json.object members).numerals, literal.size < Binary64.limit) ∧
      Block.read "\x7b\"a\":1.7976931348623158e308\x7d" = .error .malformed) ∧
    ∃ members, Grammar.Document (.object members) "\x7b\"a\":1.79769313486231591e308\x7d" ∧
      (∃ literal ∈ (Json.object members).numerals, Binary64.limit ≤ literal.size) ∧
      ∃ block, Block.read "\x7b\"a\":1.79769313486231591e308\x7d" = .ok block := by
  constructor
  · have hread : (Json.read maxDepth "\x7b\"a\":1.7976931348623158e308\x7d").map
        (fun root => (root.kind, root.numerals)) = some (.object, [nearLimit [8]]) := by
      decide +kernel
    obtain ⟨root, hread, hdocument, hdepth, hkind, hnumerals⟩ := document_of_read hread
    obtain ⟨members, rfl⟩ := kind_eq_object_iff.1 hkind
    have hlarge : (nearLimit [8]).Overflows :=
      (Numeral.toBinary64?_eq_none_iff _).1 (by decide +kernel)
    have hsmall : (nearLimit [8]).size < Binary64.limit :=
      (Numeral.size_lt_limit_iff (show (308 : Int) = (16 : Nat) + (292 : Nat) by decide)).2
        (by decide +kernel)
    refine ⟨members, hdocument, hdepth, ?_, read_of_not_accepted ?_⟩
    · rw [hnumerals]
      exact List.forall_mem_singleton.2 hsmall
    · rintro ⟨other, haccepted⟩
      cases hread.symm.trans (accepted_iff.1 haccepted).1
      exact haccepted.not_overflows _ (hnumerals ▸ List.mem_singleton_self _) hlarge
  · have hread : (Json.read maxDepth "\x7b\"a\":1.79769313486231591e308\x7d").map
        (fun root => (root.kind, root.numerals)) = some (.object, [nearLimit [9, 1]]) := by
      decide +kernel
    obtain ⟨root, hread, hdocument, hdepth, hkind, hnumerals⟩ := document_of_read hread
    obtain ⟨members, rfl⟩ := kind_eq_object_iff.1 hkind
    have hsmall : ¬(nearLimit [9, 1]).Overflows := fun hlarge =>
      absurd ((Numeral.toBinary64?_eq_none_iff _).2 hlarge) (by decide +kernel)
    have hlarge : Binary64.limit ≤ (nearLimit [9, 1]).size := by
      refine not_lt.1 fun hlt => ?_
      exact absurd ((Numeral.size_lt_limit_iff
        (show (308 : Int) = (17 : Nat) + (291 : Nat) by decide)).1 hlt) (by decide +kernel)
    refine ⟨members, hdocument, ⟨_, hnumerals ▸ List.mem_singleton_self _, hlarge⟩,
      read_of_accepted_object ⟨hdocument, hdepth, ?_⟩⟩
    rw [hnumerals]
    exact List.forall_mem_singleton.2 hsmall

end Block

end AtomicRules

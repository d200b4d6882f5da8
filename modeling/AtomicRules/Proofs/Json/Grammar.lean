import AtomicRules.Json.Basic
import AtomicRules.Text.Radix

/-!
# The grammar of JSON

Which texts spell which document, said without a reader. Blanks may stand around every part, a
character of a string may stand for itself or be escaped in any way, and a number keeps its literal.
`Document` is the relation for a whole text. The depth of a document and the number literals in it
are read off the document.
-/

namespace AtomicRules.Json

namespace Grammar

/-- Any blanks: spaces, tabs, line feeds and carriage returns. -/
def Blanks (text : List Char) : Prop :=
  ∀ c ∈ text, c = ' ' ∨ c = '\t' ∨ c = '\n' ∨ c = '\r'

/-! ## Numbers -/

/-- One or more decimal digits. -/
structure Digits (digits : List Nat) (text : List Char) : Prop where
  ne_nil : digits ≠ []
  lt_ten : ∀ digit ∈ digits, digit < 10
  text_eq : text = digits.map Text.Radix.digitChar

/-- The digits before the point: a zero alone, or digits that do not begin with zero. -/
structure Whole (digits : List Nat) (text : List Char) : Prop where
  run : Digits digits text
  no_leading_zero : digits.head? = some 0 → digits = [0]

/-- The digits after the point, or no point at all. -/
inductive Fraction : List Nat → List Char → Prop
  | absent : Fraction [] []
  | present {digits : List Nat} {text : List Char} (hdigits : Digits digits text) :
      Fraction digits ('.' :: text)

/-- The sign of an exponent and its digits. -/
inductive Signed : Int → List Char → Prop
  | unsigned {digits : List Nat} {text : List Char} (hdigits : Digits digits text) :
      Signed (Text.Radix.value 10 digits) text
  | plus {digits : List Nat} {text : List Char} (hdigits : Digits digits text) :
      Signed (Text.Radix.value 10 digits) ('+' :: text)
  | minus {digits : List Nat} {text : List Char} (hdigits : Digits digits text) :
      Signed (-(Text.Radix.value 10 digits : Int)) ('-' :: text)

/-- An exponent after its letter, or none. -/
inductive Exponent : Int → List Char → Prop
  | absent : Exponent 0 []
  | present {exponent : Int} {letter : Char} {text : List Char}
      (hletter : letter = 'e' ∨ letter = 'E') (hsigned : Signed exponent text) :
      Exponent exponent (letter :: text)

/-- A number literal. -/
inductive Number : Numeral → List Char → Prop
  | positive {whole fraction : List Nat} {exponent : Int} {front middle back : List Char}
      (hwhole : Whole whole front) (hfraction : Fraction fraction middle)
      (hexponent : Exponent exponent back) :
      Number ⟨false, whole, fraction, exponent⟩ (front ++ (middle ++ back))
  | negative {whole fraction : List Nat} {exponent : Int} {front middle back : List Char}
      (hwhole : Whole whole front) (hfraction : Fraction fraction middle)
      (hexponent : Exponent exponent back) :
      Number ⟨true, whole, fraction, exponent⟩ ('-' :: (front ++ (middle ++ back)))

/-! ## Strings -/

/-- The characters that have an escape of one letter, with this letter. -/
def escapes : List (Char × Char) :=
  [('"', '"'), ('\\', '\\'), ('/', '/'), ('\x08', 'b'), ('\x0c', 'f'), ('\n', 'n'), ('\r', 'r'),
    ('\t', 't')]

/-- A hexadecimal digit, small or capital. -/
def HexDigit (digit : Nat) (c : Char) : Prop :=
  digit < 16 ∧ (c = Text.Radix.digitChar digit ∨ c = (Text.Radix.digitChar digit).toUpper)

/-- A code unit in four hexadecimal digits. -/
inductive CodeUnit : Nat → List Char → Prop
  | mk {d₁ d₂ d₃ d₄ : Nat} {c₁ c₂ c₃ c₄ : Char} (h₁ : HexDigit d₁ c₁) (h₂ : HexDigit d₂ c₂)
      (h₃ : HexDigit d₃ c₃) (h₄ : HexDigit d₄ c₄) :
      CodeUnit (Text.Radix.value 16 [d₁, d₂, d₃, d₄]) [c₁, c₂, c₃, c₄]

/-- A code unit has sixteen bits. -/
theorem CodeUnit.lt {unit : Nat} {text : List Char} (h : CodeUnit unit text) : unit < 0x10000 := by
  cases h with
  | mk h₁ h₂ h₃ h₄ =>
      have hlt := And.intro h₁.1 (And.intro h₂.1 (And.intro h₃.1 h₄.1))
      simp only [Text.Radix.value, List.foldl_cons, List.foldl_nil]
      omega

/-- A character of a string: itself, unless it is a control character, a quote or a backslash, or
an escape. An escape gives a letter, the code point, or the two surrogates of the code point. -/
inductive Character : Char → List Char → Prop
  | raw {c : Char} (hcontrol : 0x20 ≤ c.toNat) (hquote : c ≠ '"') (hbackslash : c ≠ '\\') :
      Character c [c]
  | letter {c letter : Char} (hletter : (c, letter) ∈ escapes) : Character c ['\\', letter]
  | unit {c : Char} {text : List Char} (hunit : CodeUnit c.toNat text) :
      Character c ('\\' :: 'u' :: text)
  | pair {c : Char} {leading trailing : Nat} {front back : List Char}
      (hfront : CodeUnit leading front) (hleading : 0xd800 ≤ leading ∧ leading < 0xdc00)
      (hback : CodeUnit trailing back) (htrailing : 0xdc00 ≤ trailing ∧ trailing < 0xe000)
      (hpair : c.toNat = 0x10000 + (leading - 0xd800) * 0x400 + (trailing - 0xdc00)) :
      Character c ('\\' :: 'u' :: (front ++ '\\' :: 'u' :: back))

/-- The characters of a string, one after the other. -/
inductive Characters : List Char → List Char → Prop
  | nil : Characters [] []
  | cons {c : Char} {rest front back : List Char} (hfirst : Character c front)
      (hrest : Characters rest back) : Characters (c :: rest) (front ++ back)

/-- A string in quotes. -/
inductive Quoted : String → List Char → Prop
  | mk {value : String} {text : List Char} (hcharacters : Characters value.toList text) :
      Quoted value ('"' :: (text ++ ['"']))

/-! ## Values -/

/-- One or more items with commas between them, each with any blanks after it. -/
inductive Items {α : Type} (Item : α → List Char → Prop) : List α → List Char → Prop
  | one {item : α} {text blanks : List Char} (hitem : Item item text) (hblanks : Blanks blanks) :
      Items Item [item] (text ++ blanks)
  | more {item : α} {rest : List α} {text blanks others : List Char} (hitem : Item item text)
      (hblanks : Blanks blanks) (hrest : Items Item rest others) :
      Items Item (item :: rest) (text ++ (blanks ++ ',' :: others))

mutual

/-- A value from its first character to its last one, without blanks around it. -/
inductive Bare : Json → List Char → Prop
  | null : Bare .null ['n', 'u', 'l', 'l']
  | true : Bare (.bool true) ['t', 'r', 'u', 'e']
  | false : Bare (.bool false) ['f', 'a', 'l', 's', 'e']
  | number {literal : Numeral} {text : List Char} (hnumber : Number literal text) :
      Bare (.number literal) text
  | string {value : String} {text : List Char} (hquoted : Quoted value text) :
      Bare (.string value) text
  | emptyArray {blanks : List Char} (hblanks : Blanks blanks) :
      Bare (.array []) ('[' :: (blanks ++ [']']))
  | array {items : List Json} {text : List Char} (hitems : Items Element items text) :
      Bare (.array items) ('[' :: (text ++ [']']))
  | emptyObject {blanks : List Char} (hblanks : Blanks blanks) :
      Bare (.object []) ('\x7b' :: (blanks ++ ['\x7d']))
  | object {members : List (String × Json)} {text : List Char}
      (hmembers : Items Member members text) :
      Bare (.object members) ('\x7b' :: (text ++ ['\x7d']))

/-- A value after any blanks. -/
inductive Element : Json → List Char → Prop
  | mk {value : Json} {blanks text : List Char} (hblanks : Blanks blanks)
      (hvalue : Bare value text) :
      Element value (blanks ++ text)

/-- A key after any blanks, a colon after any blanks, and a value. -/
inductive Member : String × Json → List Char → Prop
  | mk {key : String} {value : Json} {before front after back : List Char}
      (hbefore : Blanks before) (hkey : Quoted key front) (hafter : Blanks after)
      (hvalue : Element value back) :
      Member (key, value) (before ++ (front ++ (after ++ ':' :: back)))

end

/-- A text that is one document, with any blanks around it. -/
inductive Document : Json → String → Prop
  | mk {root : Json} {source : String} {text blanks : List Char} (hroot : Element root text)
      (hblanks : Blanks blanks) (hsource : source.toList = text ++ blanks) : Document root source

end Grammar

/-! ## Measures of a document -/

mutual

/-- The levels of arrays and objects in a document. -/
def depth : Json → Nat
  | .null | .bool _ | .number _ | .string _ => 0
  | .array items => depthOfItems items + 1
  | .object members => depthOfMembers members + 1

/-- The levels in the deepest of the items. -/
def depthOfItems : List Json → Nat
  | [] => 0
  | item :: rest => max (depth item) (depthOfItems rest)

/-- The levels in the deepest of the members. -/
def depthOfMembers : List (String × Json) → Nat
  | [] => 0
  | (_, item) :: rest => max (depth item) (depthOfMembers rest)

end

mutual

/-- The number literals in a document, in order. -/
def numerals : Json → List Numeral
  | .null | .bool _ | .string _ => []
  | .number literal => [literal]
  | .array items => numeralsOfItems items
  | .object members => numeralsOfMembers members

/-- The number literals in items. -/
def numeralsOfItems : List Json → List Numeral
  | [] => []
  | item :: rest => numerals item ++ numeralsOfItems rest

/-- The number literals in members. -/
def numeralsOfMembers : List (String × Json) → List Numeral
  | [] => []
  | (_, item) :: rest => numerals item ++ numeralsOfMembers rest

end

/-- What holds of an array when it holds of the items, of an object when it holds of the values in
it, and of everything else, holds of all documents. -/
@[elab_as_elim]
theorem induction {motive : Json → Prop} (null : motive .null)
    (bool : ∀ value, motive (.bool value)) (number : ∀ literal, motive (.number literal))
    (string : ∀ value, motive (.string value))
    (array : ∀ items : List Json, (∀ item ∈ items, motive item) → motive (.array items))
    (object : ∀ members : List (String × Json),
      (∀ member ∈ members, motive member.2) → motive (.object members)) (root : Json) :
    motive root :=
  @Json.rec motive (fun items => ∀ item ∈ items, motive item)
    (fun members => ∀ member ∈ members, motive member.2) (fun member => motive member.2)
    null bool number string (fun items ih => array items ih) (fun members ih => object members ih)
    (fun _ hitem => nomatch hitem)
    (fun _ _ hhead htail => List.forall_mem_cons.2 ⟨hhead, htail⟩)
    (fun _ hmember => nomatch hmember)
    (fun _ _ hhead htail => List.forall_mem_cons.2 ⟨hhead, htail⟩)
    (fun _ _ hvalue => hvalue) root

/-- Items nest no deeper than a bound if each of them does not. -/
theorem depthOfItems_le_iff {items : List Json} {bound : Nat} :
    depthOfItems items ≤ bound ↔ ∀ item ∈ items, item.depth ≤ bound := by
  induction items with
  | nil => simp [depthOfItems]
  | cons item rest ih => rw [depthOfItems, Nat.max_le, ih, List.forall_mem_cons]

/-- Members nest no deeper than a bound if each of them does not. -/
theorem depthOfMembers_le_iff {members : List (String × Json)} {bound : Nat} :
    depthOfMembers members ≤ bound ↔ ∀ member ∈ members, member.2.depth ≤ bound := by
  induction members with
  | nil => simp [depthOfMembers]
  | cons member rest ih => rw [depthOfMembers, Nat.max_le, ih, List.forall_mem_cons]

/-- The literals in items are the literals in each of them. -/
theorem mem_numeralsOfItems_iff {items : List Json} {literal : Numeral} :
    literal ∈ numeralsOfItems items ↔ ∃ item ∈ items, literal ∈ item.numerals := by
  induction items with
  | nil => simp [numeralsOfItems]
  | cons item rest ih => simp [numeralsOfItems, ih]

/-- The literals in members are the literals in each of them. -/
theorem mem_numeralsOfMembers_iff {members : List (String × Json)} {literal : Numeral} :
    literal ∈ numeralsOfMembers members ↔ ∃ member ∈ members, literal ∈ member.2.numerals := by
  induction members with
  | nil => simp [numeralsOfMembers]
  | cons member rest ih => simp [numeralsOfMembers, ih]

end AtomicRules.Json

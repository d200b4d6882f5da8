import AtomicRules.Json.Basic
import AtomicRules.Text.Radix

/-!
# Reading JSON

A strict reader of JSON texts. Blanks are the space, the tab, the line feed and the carriage
return, and nothing but blanks may follow the document. A string holds no raw control character
and no escaped surrogate without its partner. `Json.read` takes the greatest depth to which arrays
and objects may nest, and finds no value in a text that breaks any rule.

A reader finds a value at the start of a text. What it leaves is shorter than the text, which is
why reading one value after another comes to an end.
-/

namespace AtomicRules.Json

/-- What a reader finds at the start of a text: a value, and the rest of the text after it. -/
structure Found (α : Type) (text : List Char) where
  value : α
  rest : List Char
  shorter : rest.length < text.length

/-- A reader of what stands at the start of a text. -/
abbrev Reader (α : Type) := (text : List Char) → Option (Found α text)

/-- What is left of a text after a part that may be missing. -/
abbrev Remainder (text : List Char) := { rest : List Char // rest.length ≤ text.length }

namespace Found

variable {α β : Type} {text longer : List Char}

/-- The same find with another value. -/
def map (f : α → β) (found : Found α text) : Found β text :=
  ⟨f found.value, found.rest, found.shorter⟩

/-- The same find, seen from a text that is at least as long. -/
def widen (found : Found α text) (h : text.length ≤ longer.length) : Found α longer :=
  ⟨found.value, found.rest, Nat.lt_of_lt_of_le found.shorter h⟩

end Found

/-- What follows some characters is shorter than all of it. -/
theorem length_lt_append (taken rest : List Char) (h : 0 < taken.length) :
    rest.length < (taken ++ rest).length := by
  rw [List.length_append]
  exact Nat.lt_add_of_pos_left h

/-- What follows one character of a rest is shorter than the text. -/
theorem length_lt_of_cons_le {c : Char} {more rest text : List Char}
    (le : (c :: more).length ≤ rest.length) (lt : rest.length ≤ text.length) :
    more.length < text.length :=
  Nat.lt_of_lt_of_le (Nat.lt_of_succ_le le) lt

namespace Reader

/-! ## Blanks -/

/-- The characters that may stand between the parts of a document. -/
def isBlank (c : Char) : Bool :=
  c == ' ' || c == '\t' || c == '\n' || c == '\r'

/-- The text without the blanks at its start. -/
def skipBlanks (text : List Char) : Remainder text :=
  ⟨text.dropWhile isBlank, (List.dropWhile_suffix isBlank).length_le⟩

/-- A reader that passes over blanks first. -/
def afterBlanks {α : Type} (reader : Reader α) : Reader α := fun text =>
  let start := skipBlanks text
  (reader start).map (·.widen start.2)

/-! ## Numbers -/

/-- Reads a run of decimal digits, which may be empty. -/
def takeDigits (text : List Char) : List Nat × Remainder text :=
  ((text.takeWhile Char.isDigit).map Text.Radix.digitValue,
    ⟨text.dropWhile Char.isDigit, (List.dropWhile_suffix Char.isDigit).length_le⟩)

/-- Reads a run of decimal digits. -/
def digits : Reader (List Nat)
  | [] => none
  | c :: text =>
      if c.isDigit then
        let (others, rest) := takeDigits text
        some ⟨Text.Radix.digitValue c :: others, rest, Nat.lt_succ_of_le rest.2⟩
      else none

/-- Reads the digits before the point: a zero alone, or digits that begin with another one. -/
def wholePart : Reader (List Nat)
  | '0' :: rest => some ⟨[0], rest, Nat.lt_succ_self _⟩
  | text => digits text

/-- Reads the digits after the point. A number without a point has none. -/
def fractionPart (text : List Char) : Option (List Nat × Remainder text) :=
  match text with
  | '.' :: after =>
      (digits after).map fun found =>
        (found.value, ⟨found.rest, Nat.le_succ_of_le (Nat.le_of_lt found.shorter)⟩)
  | text => some ([], ⟨text, Nat.le_refl _⟩)

/-- Reads a number with or without a sign. -/
def signed : Reader Int
  | '-' :: rest =>
      (digits rest).map fun found =>
        ⟨-(Text.Radix.value 10 found.value : Int), found.rest, Nat.lt_succ_of_lt found.shorter⟩
  | '+' :: rest =>
      (digits rest).map fun found =>
        ⟨Text.Radix.value 10 found.value, found.rest, Nat.lt_succ_of_lt found.shorter⟩
  | text => (digits text).map (·.map fun value => Text.Radix.value 10 value)

/-- Reads the exponent. A number without the letter of an exponent has the exponent zero. -/
def exponentPart (text : List Char) : Option (Int × Remainder text) :=
  match text with
  | c :: after =>
      if c == 'e' || c == 'E' then
        (signed after).map fun found =>
          (found.value, ⟨found.rest, Nat.le_succ_of_le (Nat.le_of_lt found.shorter)⟩)
      else some (0, ⟨c :: after, Nat.le_refl _⟩)
  | [] => some (0, ⟨[], Nat.le_refl _⟩)

/-- Reads a number without its minus sign. -/
def unsigned (negative : Bool) : Reader Numeral := fun text => do
  let whole ← wholePart text
  let (fraction, afterFraction) ← fractionPart whole.rest
  let (exponent, rest) ← exponentPart afterFraction
  return {
    value := { negative, whole := whole.value, fraction, exponent }
    rest := rest
    shorter := Nat.lt_of_le_of_lt (Nat.le_trans rest.2 afterFraction.2) whole.shorter }

/-- Reads a number. -/
def numeral : Reader Numeral
  | '-' :: rest => (unsigned true rest).map (·.widen (Nat.le_succ _))
  | text => unsigned false text

/-! ## Strings -/

/-- The value of a hexadecimal digit. -/
def hexDigit? (c : Char) : Option Nat :=
  if c.isDigit || ('a' ≤ c && c ≤ 'f') || ('A' ≤ c && c ≤ 'F') then
    some (Text.Radix.digitValue c.toLower)
  else none

/-- Reads four hexadecimal digits. -/
def codeUnit : Reader Nat
  | a :: b :: c :: d :: rest => do
      let digits ← [a, b, c, d].mapM hexDigit?
      return ⟨Text.Radix.value 16 digits, rest, length_lt_append [a, b, c, d] rest (Nat.succ_pos _)⟩
  | _ => none

/-- The code unit is the first half of a pair. -/
def isLeading (unit : Nat) : Bool :=
  0xd800 ≤ unit && unit < 0xdc00

/-- The code unit is the second half of a pair. -/
def isTrailing (unit : Nat) : Bool :=
  0xdc00 ≤ unit && unit < 0xe000

/-- The character of a pair of code units. -/
def ofPair (leading trailing : Nat) : Char :=
  Char.ofNat (0x10000 + (leading - 0xd800) * 0x400 + (trailing - 0xdc00))

/-- Reads what follows the letter of a numeric escape. A leading code unit needs another escape
with a trailing one. -/
def numericEscape : Reader Char := fun text => do
  let first ← codeUnit text
  if isLeading first.value then
    match first with
    | ⟨leading, '\\' :: 'u' :: more, shorter⟩ =>
        let second ← codeUnit more
        if isTrailing second.value then
          return ⟨ofPair leading second.value, second.rest,
            Nat.lt_trans second.shorter
              (Nat.lt_trans (length_lt_append ['\\', 'u'] more (Nat.succ_pos _)) shorter)⟩
        else none
    | _ => none
  else if isTrailing first.value then none
  else return first.map Char.ofNat

/-- The character that a backslash and a letter stand for. -/
def ofEscapeLetter? : Char → Option Char
  | '"' => some '"'
  | '\\' => some '\\'
  | '/' => some '/'
  | 'b' => some '\x08'
  | 'f' => some '\x0c'
  | 'n' => some '\n'
  | 'r' => some '\r'
  | 't' => some '\t'
  | _ => none

/-- Reads what follows a backslash. -/
def escape : Reader Char
  | [] => none
  | 'u' :: rest => (numericEscape rest).map (·.widen (Nat.le_succ _))
  | letter :: rest => (ofEscapeLetter? letter).map fun c => ⟨c, rest, Nat.lt_succ_self _⟩

/-- Reads a character of a string, other than the quote that ends it. -/
def stringChar : Reader Char
  | [] => none
  | '\\' :: rest => (escape rest).map (·.widen (Nat.le_succ _))
  | c :: rest =>
      if c.toNat < 0x20 || c == '"' then none else some ⟨c, rest, Nat.lt_succ_self _⟩

/-- Reads the characters of a string up to its closing quote. -/
def stringTail : Reader (List Char)
  | '"' :: rest => some ⟨[], rest, Nat.lt_succ_self _⟩
  | text => do
      let first ← stringChar text
      let others ← stringTail first.rest
      return ⟨first.value :: others.value, others.rest,
        Nat.lt_trans others.shorter first.shorter⟩
termination_by text => text.length
decreasing_by exact first.shorter

/-- Reads a string in quotes. -/
def string : Reader String
  | '"' :: rest => (stringTail rest).map fun found =>
      (found.map String.ofList).widen (Nat.le_succ _)
  | _ => none

/-! ## Values -/

/-- Reads a word, given by its first letter and the others, as the value it stands for. -/
def word {α : Type} (first : Char) (others : List Char) (value : α) : Reader α
  | [] => none
  | c :: rest =>
      if c == first && others.isPrefixOf rest then
        some ⟨value, rest.drop others.length, Nat.lt_succ_of_le (List.drop_sublist _ _).length_le⟩
      else none

/-- Reads one or more items with commas between them, up to the closing bracket. -/
def itemsUntil {α : Type} (close : Char) (item : Reader α) : Reader (List α) := fun text => do
  let first ← item text
  match skipBlanks first.rest with
  | ⟨c :: more, le⟩ =>
      have left := length_lt_of_cons_le le (Nat.le_of_lt first.shorter)
      if c = ',' then do
        let others ← itemsUntil close item more
        return ⟨first.value :: others.value, others.rest, Nat.lt_trans others.shorter left⟩
      else if c = close then return ⟨[first.value], more, left⟩
      else none
  | ⟨[], _⟩ => none
termination_by text => text.length

/-- Reads items with commas between them up to the closing bracket, or only the bracket. -/
def itemsOrNone {α : Type} (close : Char) (item : Reader α) : Reader (List α) := fun text =>
  match skipBlanks text with
  | ⟨c :: rest, le⟩ =>
      if c = close then some ⟨[], rest, length_lt_of_cons_le le (Nat.le_refl _)⟩
      else itemsUntil close item text
  | ⟨[], _⟩ => none

/-- Reads a value with a key and a colon before it. -/
def member {α : Type} (item : Reader α) : Reader (String × α) := fun text => do
  let key ← afterBlanks string text
  match skipBlanks key.rest with
  | ⟨':' :: more, le⟩ =>
      let found ← item more
      return ⟨(key.value, found.value), found.rest,
        Nat.lt_trans found.shorter (length_lt_of_cons_le le (Nat.le_of_lt key.shorter))⟩
  | _ => none

/-- Reads a value that holds no others. -/
def leaf : Reader Json := fun text =>
  word 'n' ['u', 'l', 'l'] .null text
    <|> word 't' ['r', 'u', 'e'] (.bool true) text
    <|> word 'f' ['a', 'l', 's', 'e'] (.bool false) text
    <|> (string text).map (·.map .string)
    <|> (numeral text).map (·.map .number)

/-- Reads a value after any blanks. Arrays and objects nest at most to the given depth. -/
def value : (depth : Nat) → Reader Json
  | 0 => afterBlanks leaf
  | depth + 1 => afterBlanks fun
      | '[' :: rest => (itemsOrNone ']' (value depth) rest).map fun found =>
          (found.map .array).widen (Nat.le_succ _)
      | '{' :: rest => (itemsOrNone '}' (member (value depth)) rest).map fun found =>
          (found.map .object).widen (Nat.le_succ _)
      | text => leaf text

end Reader

/-- The value that a text holds, if the text is one document of at most the given depth. -/
def read (depth : Nat) (text : String) : Option Json := do
  let found ← Reader.value depth text.toList
  match (Reader.skipBlanks found.rest).1 with
  | [] => return found.value
  | _ => none

end AtomicRules.Json

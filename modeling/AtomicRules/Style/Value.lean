import AtomicRules.Binary64.Rounding
import AtomicRules.Entries

/-!
# Style values and blocks

A style block maps keys to values in the order in which the keys first came. A value is a leaf, a
list of values, or a block again. Blocks are built by insertion (`Block.insert`, `Block.ofList`),
and `ToValue` turns ordinary data into values.

Values are compared by `==` as numbers, texts and ordered lists: zero equals minus zero, a NaN
equals nothing, and two blocks are equal when they have equal entries in the same order.
-/

namespace AtomicRules

mutual

/-- A value of a style block. -/
inductive Value where
  | null
  | bool (value : Bool)
  | text (value : String)
  | number (value : Binary64)
  | list (items : List Value)
  | block (value : Block)

/-- A style block: keys and values in order. -/
structure Block where
  entries : List (String × Value)

end

/-- What holds of a list when it holds of the items, of a block when it holds of the values in it,
and of everything else, holds of all values. -/
@[elab_as_elim]
theorem Value.induction {motive : Value → Prop} (null : motive .null)
    (bool : ∀ value, motive (.bool value)) (text : ∀ value, motive (.text value))
    (number : ∀ value, motive (.number value))
    (list : ∀ items : List Value, (∀ item ∈ items, motive item) → motive (.list items))
    (block : ∀ entries : List (String × Value),
      (∀ entry ∈ entries, motive entry.2) → motive (.block ⟨entries⟩))
    (value : Value) : motive value :=
  @Value.rec motive (fun block => motive (.block block)) (fun items => ∀ item ∈ items, motive item)
    (fun entries => ∀ entry ∈ entries, motive entry.2) (fun entry => motive entry.2)
    null bool text number (fun items ih => list items ih) (fun _ ih => ih)
    (fun entries ih => block entries ih)
    (fun _ hitem => nomatch hitem)
    (fun _ _ hhead htail => List.forall_mem_cons.2 ⟨hhead, htail⟩)
    (fun _ hentry => nomatch hentry)
    (fun _ _ hhead htail => List.forall_mem_cons.2 ⟨hhead, htail⟩)
    (fun _ _ hvalue => hvalue) value

instance : Inhabited Value := ⟨.null⟩
instance : Inhabited Block := ⟨⟨[]⟩⟩

/-- A leaf that can be written into a style sheet. -/
inductive Scalar where
  | text (value : String)
  | number (value : Binary64)
deriving DecidableEq

/-- The kind of a value. -/
inductive Kind where
  | null
  | boolean
  | text
  | number
  | list
  | object
deriving DecidableEq

/-- The name of a kind, as messages show it. -/
def Kind.name : Kind → String
  | .null => "null"
  | .boolean => "boolean"
  | .text => "text"
  | .number => "number"
  | .list => "list"
  | .object => "object"

namespace Value

/-- The kind of the value. -/
def kind : Value → Kind
  | .null => .null
  | .bool _ => .boolean
  | .text _ => .text
  | .number _ => .number
  | .list _ => .list
  | .block _ => .object

/-- The value asks for nothing: null, false or the empty text. Zero is not blank. -/
def isBlank : Value → Bool
  | .null => true
  | .bool value => !value
  | .text value => value.isEmpty
  | _ => false

/-- The value as a leaf, if it is a text or a number. -/
def scalar? : Value → Option Scalar
  | .text value => some (.text value)
  | .number value => some (.number value)
  | _ => none

mutual

/-- Whether two values are equal. -/
def equal : Value → Value → Bool
  | .null, .null => true
  | .bool a, .bool b => a == b
  | .text a, .text b => a == b
  | .number a, .number b => a == b
  | .list a, .list b => equalItems a b
  | .block a, .block b => equalBlocks a b
  | _, _ => false
termination_by structural a => a

/-- Whether two lists have equal values in the same order. -/
def equalItems : List Value → List Value → Bool
  | [], [] => true
  | a :: as, b :: bs => equal a b && equalItems as bs
  | _, _ => false
termination_by structural a => a

/-- Whether two blocks have equal entries in the same order. -/
def equalBlocks : Block → Block → Bool
  | ⟨a⟩, ⟨b⟩ => equalEntries a b
termination_by structural a => a

/-- Whether two lists have the same keys with equal values in the same order. -/
def equalEntries : List (String × Value) → List (String × Value) → Bool
  | [], [] => true
  | (k, a) :: as, (l, b) :: bs => k == l && equal a b && equalEntries as bs
  | _, _ => false
termination_by structural a => a

end

instance : BEq Value := ⟨equal⟩

end Value

/-- Data that can stand as a value in a style block. -/
class ToValue (α : Type) where
  toValue : α → Value

export ToValue (toValue)

namespace Block

instance : BEq Block := ⟨Value.equalBlocks⟩

/-- The block without entries. -/
def empty : Block := ⟨[]⟩

instance : EmptyCollection Block := ⟨empty⟩

/-- Puts a value under a key. A key that is there keeps its place and gets the new value. -/
def insert {α : Type} [ToValue α] (block : Block) (key : String) (value : α) : Block :=
  ⟨Entries.put key (toValue value) block.entries⟩

/-- The value under a key. -/
def get? (block : Block) (key : String) : Option Value :=
  Entries.lookup key block.entries

/-- The number of keys. -/
def size (block : Block) : Nat :=
  block.entries.length

/-- The block has no keys. -/
def isEmpty (block : Block) : Bool :=
  block.entries.isEmpty

/-- The block of a list of pairs, inserted one after the other. -/
def ofList {α : Type} [ToValue α] (pairs : List (String × α)) : Block :=
  pairs.foldl (fun block (key, value) => block.insert key value) empty

end Block

/-! ## Ordinary data as values -/

instance : ToValue Value := ⟨id⟩
instance : ToValue Block := ⟨.block⟩
instance : ToValue String := ⟨.text⟩
instance : ToValue Bool := ⟨.bool⟩
instance : ToValue Binary64 := ⟨.number⟩
instance : ToValue Binary32 := ⟨fun x => .number x.widen⟩
instance : ToValue Int := ⟨fun n => .number (.ofInt n)⟩
instance : ToValue Int8 := ⟨fun n => toValue n.toInt⟩
instance : ToValue Int16 := ⟨fun n => toValue n.toInt⟩
instance : ToValue Int32 := ⟨fun n => toValue n.toInt⟩
instance : ToValue Int64 := ⟨fun n => toValue n.toInt⟩
instance : ToValue ISize := ⟨fun n => toValue n.toInt⟩
instance : ToValue UInt8 := ⟨fun n => toValue (n.toNat : Int)⟩
instance : ToValue UInt16 := ⟨fun n => toValue (n.toNat : Int)⟩
instance : ToValue UInt32 := ⟨fun n => toValue (n.toNat : Int)⟩
instance : ToValue UInt64 := ⟨fun n => toValue (n.toNat : Int)⟩
instance : ToValue USize := ⟨fun n => toValue (n.toNat : Int)⟩

/-- A list of data is the list of its values. -/
instance {α : Type} [ToValue α] : ToValue (List α) := ⟨fun items => .list (items.map toValue)⟩

/-- Absent data is null. -/
instance {α : Type} [ToValue α] : ToValue (Option α) := ⟨fun item => item.elim .null toValue⟩

namespace Block

/-- The first place of a key stays, its last value counts. -/
example : (ofList [("color", "gold"), ("margin", "0"), ("color", "black")]) ==
    ofList [("color", "black"), ("margin", "0")] := by decide +kernel

end Block

end AtomicRules

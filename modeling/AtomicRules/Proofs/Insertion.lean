import AtomicRules.Proofs.Distinct
import AtomicRules.Style.Value

/-!
# Blocks as ordered maps

A block is built by insertions alone, one by one or from a list of pairs (`Built`). It depends only
on the pairs that were inserted, in their order (`Built.eq_ofList`). `Built.ordered_map` says what
is in it: each key once, in the order in which the keys first came, and under each key the value
that was inserted last.
-/

namespace AtomicRules

namespace Entries

variable {κ α : Type} [DecidableEq κ]

/-- A new key is stored at the end. -/
theorem put_of_notMem {key : κ} {value : α} {entries : List (κ × α)}
    (h : key ∉ keys entries) : put key value entries = entries ++ [(key, value)] := by
  induction entries with
  | nil => rfl
  | cons entry rest ih =>
      obtain ⟨k, v⟩ := entry
      simp only [keys, List.map_cons, List.mem_cons, not_or] at h
      rw [put, if_neg (Ne.symm h.1), ih h.2, List.cons_append]

/-- What stands at a place under another key stays there, and nothing is added under it. -/
theorem getElem?_put_eq_some_iff {key other : κ} (hne : other ≠ key) (value : α)
    (entries : List (κ × α)) (place : Nat) (held : α) :
    (put key value entries)[place]? = some (other, held) ↔
      entries[place]? = some (other, held) := by
  induction entries generalizing place with
  | nil => cases place <;> simp [put, Ne.symm hne]
  | cons entry rest ih =>
      obtain ⟨k, v⟩ := entry
      rw [put]
      split
      · next hkey =>
          cases place with
          | zero => simp [hkey, Ne.symm hne]
          | succ place => rfl
      · cases place with
        | zero => rfl
        | succ place => exact ih place

omit [DecidableEq κ] in
theorem keys_append (front back : List (κ × α)) :
    keys (front ++ back) = keys front ++ keys back :=
  List.map_append

/-- The value under a key is that of the first pair with the key. -/
theorem lookup_eq_some_iff {key : κ} {value : α} {entries : List (κ × α)} :
    lookup key entries = some value ↔
      ∃ front back, entries = front ++ (key, value) :: back ∧ key ∉ keys front := by
  induction entries with
  | nil => simp [lookup]
  | cons entry rest ih =>
      obtain ⟨k, v⟩ := entry
      rw [lookup]
      split
      · next hkey =>
          subst hkey
          constructor
          · rintro ⟨⟩
            exact ⟨[], rest, rfl, List.not_mem_nil⟩
          · rintro ⟨_ | ⟨first, front⟩, back, hsplit, hfront⟩
            · cases hsplit
              rfl
            · cases hsplit
              exact absurd (List.mem_cons_self) hfront
      · next hkey =>
          rw [ih]
          constructor
          · rintro ⟨front, back, rfl, hfront⟩
            refine ⟨(k, v) :: front, back, rfl, ?_⟩
            simpa [keys] using ⟨Ne.symm hkey, by simpa [keys] using hfront⟩
          · rintro ⟨_ | ⟨first, front⟩, back, hsplit, hfront⟩
            · cases hsplit
              contradiction
            · cases hsplit
              exact ⟨front, back, rfl, fun hmem => hfront (List.mem_cons_of_mem _ hmem)⟩

/-- The value under a key in the pairs read backwards is that of the last pair with the key. -/
theorem lookup_reverse_eq_some_iff {key : κ} {value : α} {pairs : List (κ × α)} :
    lookup key pairs.reverse = some value ↔
      ∃ before after, pairs = before ++ (key, value) :: after ∧ key ∉ keys after := by
  have hkeys (part : List (κ × α)) : key ∈ keys part.reverse ↔ key ∈ keys part := by
    rw [keys, keys, List.map_reverse, List.mem_reverse]
  rw [lookup_eq_some_iff]
  constructor
  · rintro ⟨front, back, hsplit, hfront⟩
    refine ⟨back.reverse, front.reverse, ?_, (hkeys front).not.2 hfront⟩
    rw [List.reverse_eq_iff.1 hsplit]
    simp
  · rintro ⟨before, after, rfl, hafter⟩
    exact ⟨after.reverse, before.reverse, by simp, (hkeys after).not.2 hafter⟩

end Entries

namespace Block

theorem ofList_concat (pairs : List (String × Value)) (key : String) (value : Value) :
    ofList (pairs ++ [(key, value)]) = (ofList pairs).insert key value := by
  rw [ofList, List.foldl_append]
  rfl

/-- A repeated key keeps its first place. -/
theorem keys_ofList (pairs : List (String × Value)) :
    Entries.keys (ofList pairs).entries = (Entries.keys pairs).eraseDups := by
  induction pairs using List.reverseRecOn with
  | nil => rfl
  | append_singleton pairs pair ih =>
      obtain ⟨key, value⟩ := pair
      have hkeys : Entries.keys (pairs ++ [(key, value)]) = Entries.keys pairs ++ [key] :=
        Entries.keys_append _ _
      rw [ofList_concat, insert, Entries.keys_put, ih, hkeys, eraseDups_concat]
      simp only [List.mem_eraseDups]

/-- A repeated key has its last value. -/
theorem get?_ofList (pairs : List (String × Value)) (key : String) :
    (ofList pairs).get? key = Entries.lookup key pairs.reverse := by
  induction pairs using List.reverseRecOn with
  | nil => rfl
  | append_singleton pairs pair ih =>
      obtain ⟨other, value⟩ := pair
      rw [ofList_concat, List.reverse_append, get?, insert, Entries.lookup_put, ← get?, ih]
      simp only [List.reverse_singleton, List.singleton_append, Entries.lookup, eq_comm]
      rfl

/-- A list without repeated keys is the block that is built of it. -/
theorem ofList_of_nodup {pairs : List (String × Value)} (h : (Entries.keys pairs).Nodup) :
    ofList pairs = ⟨pairs⟩ := by
  induction pairs using List.reverseRecOn with
  | nil => rfl
  | append_singleton pairs pair ih =>
      obtain ⟨key, value⟩ := pair
      have hkeys : Entries.keys (pairs ++ [(key, value)]) = Entries.keys pairs ++ [key] :=
        Entries.keys_append _ _
      rw [hkeys, List.nodup_append] at h
      obtain ⟨hpairs, -, hnew⟩ := h
      have hkey : key ∉ Entries.keys pairs := fun hmem => hnew key hmem key (by simp) rfl
      rw [ofList_concat, ih hpairs, insert, Entries.put_of_notMem hkey]
      rfl

/-- Data is inserted as the values it stands for. -/
theorem ofList_eq_ofList_map {α : Type} [ToValue α] (pairs : List (String × α)) :
    ofList pairs = ofList (pairs.map fun pair => (pair.1, toValue pair.2)) := by
  rw [ofList, ofList, List.foldl_map]
  rfl

/-! ## Every way to build a block -/

/-- The block is built by inserting these pairs, one after the other. -/
inductive Built : List (String × Value) → Block → Prop where
  | empty : Built [] ∅
  | ofList {α : Type} [ToValue α] (pairs : List (String × α)) :
      Built (pairs.map fun pair => (pair.1, toValue pair.2)) (.ofList pairs)
  | insert {α : Type} [ToValue α] {past : List (String × Value)} {block : Block}
      (h : Built past block) (key : String) (value : α) :
      Built (past ++ [(key, toValue value)]) (block.insert key value)

namespace Built

variable {past : List (String × Value)} {block : Block}

/-- A block is the one that its pairs build as a list, in whatever way they were inserted. -/
theorem eq_ofList (h : Built past block) : block = Block.ofList past := by
  induction h with
  | empty => rfl
  | ofList pairs => exact Block.ofList_eq_ofList_map pairs
  | insert h key value ih =>
      rw [Block.ofList_concat, ← ih]
      rfl

/-- A block that was built by insertions has the keys that were inserted, each once and in the order
in which they first came. Under a key it has the value that was inserted last, and under a key that
never came it has none. One more insertion changes the value and the place of no other key, and
inserting the entries of the block into an empty one gives the block again. -/
theorem ordered_map (h : Built past block) :
    Entries.keys block.entries = (Entries.keys past).eraseDups ∧
      (Entries.keys block.entries).Nodup ∧
      (∀ key value, block.get? key = some value ↔
        ∃ before after, past = before ++ (key, value) :: after ∧ key ∉ Entries.keys after) ∧
      (∀ key, block.get? key = none ↔ key ∉ Entries.keys past) ∧
      block.size = (Entries.keys past).eraseDups.length ∧
      (∀ {α : Type} [ToValue α] (key : String) (value : α) (other : String), other ≠ key →
        (block.insert key value).get? other = block.get? other ∧
          ∀ (place : Nat) (held : Value),
            (block.insert key value).entries[place]? = some (other, held) ↔
              block.entries[place]? = some (other, held)) ∧
      Block.ofList block.entries = block := by
  have hkeys : Entries.keys block.entries = (Entries.keys past).eraseDups := by
    rw [h.eq_ofList, Block.keys_ofList]
  have hnodup : (Entries.keys block.entries).Nodup := by
    rw [hkeys]
    exact nodup_eraseDups _
  refine ⟨hkeys, hnodup, fun key value => ?_, fun key => ?_, ?_,
    fun key value other hne => ?_, ?_⟩
  · rw [h.eq_ofList, Block.get?_ofList, Entries.lookup_reverse_eq_some_iff]
  · rw [← List.mem_eraseDups, ← hkeys, ← Entries.isSome_lookup_iff, Bool.not_eq_true,
      Option.isSome_eq_false_iff, Option.isNone_iff_eq_none]
    rfl
  · rw [← hkeys, Entries.keys, List.length_map]
    rfl
  · refine ⟨?_, fun place held => Entries.getElem?_put_eq_some_iff hne _ _ place held⟩
    rw [Block.get?, Block.insert, Entries.lookup_put, if_neg hne]
    rfl
  · obtain ⟨entries⟩ := block
    exact Block.ofList_of_nodup hnodup

/-- A list of pairs with a repeated key, and a key that comes back with a value of another kind. -/
theorem ordered_map_repeated :
    let block := ((Block.ofList [("color", "gold"), ("margin", "0"), ("color", "red")]).insert
      "top" (2 : Int)).insert "color" false
    let past := [("color", .text "gold"), ("margin", .text "0"), ("color", .text "red"),
      ("top", .number (.ofInt 2)), ("color", .bool false)]
    Built past block ∧
      Entries.keys block.entries = ["color", "margin", "top"] ∧
      block.get? "color" = some (.bool false) ∧
      block.get? "left" = none ∧
      block.size = 3 ∧
      (block.insert "margin" "1").get? "top" = block.get? "top" ∧
      Block.ofList block.entries = block := by
  intro block past
  have hbuilt : Built past block :=
    ((Built.ofList [("color", "gold"), ("margin", "0"), ("color", "red")]).insert
      "top" (2 : Int)).insert "color" false
  obtain ⟨hkeys, -, hvalue, hnone, hsize, hother, hagain⟩ := hbuilt.ordered_map
  have hlast : block.get? "color" = some (.bool false) :=
    (hvalue "color" (.bool false)).2 ⟨past.dropLast, [], rfl, List.not_mem_nil⟩
  exact ⟨hbuilt, hkeys, hlast, (hnone "left").2 (by decide), hsize,
    (hother "margin" "1" "top" (by decide)).1, hagain⟩

end Built

end Block

end AtomicRules

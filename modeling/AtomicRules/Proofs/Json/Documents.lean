import AtomicRules.Proofs.Json.Strings

/-!
# Reading documents

The reader of values by induction on the depth that it is allowed. At every depth it finds exactly
the values of the grammar that nest no deeper (`value_sound`, `value_complete`), and so a text is
read to the end if and only if it is one such document (`read_eq_some_iff`).
-/

namespace AtomicRules.Json

namespace Grammar

variable {α : Type}

/-- Items that all have a property besides. -/
theorem items_and_iff {Item : α → List Char → Prop} {P : α → Prop} {items : List α}
    {text : List Char} : Items (fun item text => Item item text ∧ P item) items text ↔
      Items Item items text ∧ ∀ item ∈ items, P item := by
  constructor
  · intro h
    induction h with
    | one hitem hblanks => exact ⟨.one hitem.1 hblanks, by simpa using hitem.2⟩
    | more hitem hblanks _ ih =>
        exact ⟨.more hitem.1 hblanks ih.1, List.forall_mem_cons.2 ⟨hitem.2, ih.2⟩⟩
  · rintro ⟨h, hall⟩
    induction h with
    | one hitem hblanks => exact .one ⟨hitem, hall _ (by simp)⟩ hblanks
    | more hitem hblanks _ ih =>
        rw [List.forall_mem_cons] at hall
        exact .more ⟨hitem, hall.1⟩ hblanks (ih hall.2)

/-- Items up to the closing bracket, or only blanks up to it. -/
inductive Enclosed (close : Char) (Item : α → List Char → Prop) : List α → List Char → Prop
  | empty {blanks : List Char} (hblanks : Blanks blanks) :
      Enclosed close Item [] (blanks ++ [close])
  | items {items : List α} {text : List Char} (hitems : Items Item items text) :
      Enclosed close Item items (text ++ [close])

/-- The brackets that close items. -/
def IsClosing (c : Char) : Prop :=
  c = ']' ∨ c = '\x7d'

/-- After blanks comes what comes after none. -/
theorem Blanks.avoids {blanks rest : List Char} {kind : Char → Bool} (h : Blanks blanks)
    (hkind : ∀ c, Reader.isBlank c → kind c = false) (hrest : Avoids kind rest) :
    Avoids kind (blanks ++ rest) := by
  cases blanks with
  | nil => exact hrest
  | cons c blanks =>
      intro d hd
      cases hd
      exact hkind c (Reader.isBlank_iff.2 (h c (by simp)))

/-- No string begins with a blank. -/
theorem Quoted.avoids {value : String} {text : List Char} (h : Quoted value text)
    (rest : List Char) : Avoids Reader.isBlank (text ++ rest) := by
  cases h
  intro c hc
  cases hc
  rfl

/-- A number begins with a digit or a minus sign. -/
theorem Number.exists_cons {literal : Numeral} {text : List Char} (h : Number literal text) :
    ∃ c more, (c.isDigit = true ∨ c = '-') ∧ text = c :: more := by
  cases h with
  | positive hwhole =>
      obtain ⟨digit, others, hlt, -, rfl⟩ := hwhole.run.exists_cons
      exact ⟨_, _, .inl (isDigit_digitChar hlt), rfl⟩
  | negative => exact ⟨'-', _, .inr rfl, rfl⟩

/-- A text whose first character after any blanks does not close items. -/
def Opens (text : List Char) : Prop :=
  ∃ blanks c more, Blanks blanks ∧ ¬Reader.isBlank c ∧ ¬IsClosing c ∧
    text = blanks ++ c :: more

/-- What comes behind does not change how a text begins. -/
theorem Opens.append {text : List Char} (h : Opens text) (rest : List Char) :
    Opens (text ++ rest) := by
  obtain ⟨blanks, c, more, hblanks, hblank, hclosing, rfl⟩ := h
  exact ⟨blanks, c, more ++ rest, hblanks, hblank, hclosing, List.append_assoc ..⟩

/-- A value begins with a character that is no blank and no closing bracket. -/
theorem Bare.exists_cons {value : Json} {text : List Char} (h : Bare value text) :
    ∃ c more, ¬Reader.isBlank c ∧ ¬IsClosing c ∧ text = c :: more := by
  cases h with
  | number hnumber =>
      obtain ⟨c, more, hc, rfl⟩ := hnumber.exists_cons
      refine ⟨c, more, fun hblank => ?_, ?_, rfl⟩
      · rcases Reader.isBlank_iff.1 hblank with rfl | rfl | rfl | rfl <;> revert hc <;> decide
      · rintro (rfl | rfl) <;> revert hc <;> decide
  | string hquoted => cases hquoted; exact ⟨_, _, by decide, by simp [IsClosing], rfl⟩
  | _ => exact ⟨_, _, by decide, by simp [IsClosing], rfl⟩

/-- An element begins with a blank or as its value does. -/
theorem Element.opens {value : Json} {text : List Char} (h : Element value text) : Opens text := by
  cases h with
  | mk hblanks hvalue =>
      obtain ⟨c, more, hblank, hclosing, rfl⟩ := hvalue.exists_cons
      exact ⟨_, c, more, hblanks, hblank, hclosing, rfl⟩

/-- A member begins with a blank or with the quote of its name. -/
theorem Member.opens {member : String × Json} {text : List Char} (h : Member member text) :
    Opens text := by
  cases h with
  | mk hbefore hkey =>
      cases hkey
      exact ⟨_, '"', _, hbefore, by decide, by simp [IsClosing], rfl⟩

/-- Items begin as the first of them does. -/
theorem Items.opens {Item : α → List Char → Prop} {items : List α} {text : List Char}
    (h : Items Item items text) (hopens : ∀ item text, Item item text → Opens text) :
    Opens text := by
  cases h with
  | one hitem => exact (hopens _ _ hitem).append _
  | more hitem => exact (hopens _ _ hitem).append _

end Grammar

namespace Reader

open Grammar

variable {α : Type}

/-! ## Words and leaves -/

/-- A word is found where all of its letters stand, and nowhere else. -/
theorem run_word_eq_some_iff {first : Char} {others : List Char} {value found : α}
    {text rest : List Char} : run (word first others value) text = some (found, rest) ↔
      found = value ∧ text = first :: (others ++ rest) := by
  cases text with
  | nil => simp [run, word]
  | cons c text =>
      by_cases h : c = first ∧ others <+: text
      · obtain ⟨rfl, more, rfl⟩ := h
        have hfits : (c == c && others.isPrefixOf (others ++ more)) = true := by simp
        simp only [run, word, hfits, if_true, Option.map_some, List.drop_left, Option.some.injEq,
          Prod.mk.injEq, List.cons.injEq, true_and, List.append_cancel_left_eq]
        rw [@eq_comm _ value]
      · have hnone : run (word first others value) (c :: text) = none := by
          rw [← List.isPrefixOf_iff_prefix, ← beq_iff_eq, ← Bool.and_eq_true] at h
          simp only [run, word, if_neg h, Option.map_none]
        rw [hnone]
        simp only [reduceCtorEq, false_iff, not_and, List.cons.injEq]
        rintro - rfl rfl
        exact h ⟨rfl, List.prefix_append _ _⟩

/-- A word is not found where the text does not begin with its first letter. -/
theorem run_word {first : Char} {others : List Char} {value : α} {text : List Char}
    (h : Avoids (· == first) text) : run (word first others value) text = none := by
  refine Option.eq_none_iff_forall_not_mem.2 fun found hfound => ?_
  obtain ⟨-, rfl⟩ := run_word_eq_some_iff.1 hfound
  simpa using h first rfl

/-- A value that nests nothing is a word, a string or a number. -/
theorem run_leaf (text : List Char) :
    run leaf text = (run (word 'n' ['u', 'l', 'l'] .null) text).or
      ((run (word 't' ['r', 'u', 'e'] (.bool true)) text).or
        ((run (word 'f' ['a', 'l', 's', 'e'] (.bool false)) text).or
          (((run string text).map fun found => (.string found.1, found.2)).or
            ((run numeral text).map fun found => (.number found.1, found.2))))) := by
  unfold run leaf
  cases word 'n' ['u', 'l', 'l'] Json.null text <;>
  cases word 't' ['r', 'u', 'e'] (Json.bool true) text <;>
  cases word 'f' ['a', 'l', 's', 'e'] (Json.bool false) text <;>
  cases string text <;> cases numeral text <;> rfl

/-- A value that nests nothing is spelled by the characters that are taken. -/
theorem leaf_sound : Sound (run leaf) fun value text => Bare value text ∧ value.depth ≤ 0 := by
  intro text value rest h
  simp only [run_leaf, Option.or_eq_some_iff, run_word_eq_some_iff, Option.map_eq_some_iff] at h
  rcases h with ⟨rfl, rfl⟩ | ⟨-, ⟨rfl, rfl⟩ | ⟨-, ⟨rfl, rfl⟩ | ⟨-, ⟨found, hstring, heq⟩ |
    ⟨-, found, hnumeral, heq⟩⟩⟩⟩
  · exact ⟨['n', 'u', 'l', 'l'], rfl, .null, Nat.le_refl 0⟩
  · exact ⟨['t', 'r', 'u', 'e'], rfl, .true, Nat.le_refl 0⟩
  · exact ⟨['f', 'a', 'l', 's', 'e'], rfl, .false, Nat.le_refl 0⟩
  · cases heq
    obtain ⟨front, rfl, hquoted⟩ := string_sound _ _ _ hstring
    exact ⟨front, rfl, .string hquoted, Nat.le_refl 0⟩
  · cases heq
    obtain ⟨front, rfl, hnumber⟩ := numeral_sound _ _ _ hnumeral
    exact ⟨front, rfl, .number hnumber, Nat.le_refl 0⟩

/-- Every value that nests nothing is found where no number could go on. -/
theorem leaf_complete : Complete (run leaf) (fun value text => Bare value text ∧ value.depth ≤ 0)
    (Avoids isOfNumber) := by
  rintro value front rest ⟨hvalue, hdepth⟩ hrest
  rw [run_leaf]
  cases hvalue with
  | null => rfl
  | true => rfl
  | false => rfl
  | number hnumber =>
      have hfirst (c : Char) (hdigit : c.isDigit = false) (hminus : c ≠ '-') :
          Avoids (· == c) (front ++ rest) := by
        obtain ⟨d, more, hd, rfl⟩ := hnumber.exists_cons
        intro e he
        cases he
        rw [beq_eq_false_iff_ne]
        rintro rfl
        simp [hdigit, hminus] at hd
      rw [run_word (hfirst 'n' rfl (by decide)), run_word (hfirst 't' rfl (by decide)),
        run_word (hfirst 'f' rfl (by decide)), run_string (hfirst '"' rfl (by decide)),
        numeral_complete _ _ _ hnumber hrest]
      rfl
  | string hquoted =>
      have hfirst (c : Char) (hc : c ≠ '"') : Avoids (· == c) (front ++ rest) := by
        intro d hd
        cases hquoted
        cases hd
        simpa using Ne.symm hc
      rw [run_word (hfirst 'n' (by decide)), run_word (hfirst 't' (by decide)),
        run_word (hfirst 'f' (by decide)), string_complete _ _ _ hquoted trivial]
      rfl
  | _ => simp [depth] at hdepth

/-! ## Items in brackets -/

/-- A number does not go on with a blank. -/
theorem isOfNumber_of_isBlank (c : Char) (h : isBlank c) : isOfNumber c = false := by
  rcases isBlank_iff.1 h with rfl | rfl | rfl | rfl <;> rfl

/-- What comes after an item: a comma or a closing bracket, with any blanks before it. -/
theorem avoids_isOfNumber {blanks more : List Char} {c : Char} (hblanks : Blanks blanks)
    (hc : c = ',' ∨ IsClosing c) : Avoids isOfNumber (blanks ++ c :: more) := by
  refine hblanks.avoids isOfNumber_of_isBlank fun d hd => ?_
  cases hd
  rcases hc with rfl | rfl | rfl <;> rfl

/-- Blanks end at a comma or a closing bracket. -/
theorem skipBlanks_of_close {blanks more : List Char} {c : Char} (hblanks : Blanks blanks)
    (hc : c = ',' ∨ IsClosing c) : (skipBlanks (blanks ++ c :: more)).1 = c :: more := by
  refine skipBlanks_complete hblanks fun d hd => ?_
  cases hd
  rcases hc with rfl | rfl | rfl <;> rfl

/-- An item is followed by a comma and more items, or by the closing bracket. -/
theorem run_itemsUntil (close : Char) (item : Reader α) (text : List Char) :
    run (itemsUntil close item) text = (run item text).bind fun first =>
      match (skipBlanks first.2).1 with
      | c :: more =>
          if c = ',' then (run (itemsUntil close item) more).map fun others =>
            (first.1 :: others.1, others.2)
          else if c = close then some ([first.1], more) else none
      | [] => none := by
  rw [run, itemsUntil]
  cases hfirst : item text with
  | none => simp [run, hfirst]
  | some first =>
      simp only [run, hfirst, Option.bind_eq_bind, Option.bind_some, Option.map_some]
      rcases skipBlanks first.rest with ⟨_ | ⟨c, more⟩, le⟩
      · rfl
      · by_cases hcomma : c = ','
        · simp only [hcomma, if_true]
          cases itemsUntil close item more <;> rfl
        · by_cases hclose : c = close
          · subst hclose
            simp [hcomma]
          · simp [hcomma, hclose]

variable {close : Char} {item : Reader α} {Item : α → List Char → Prop}

/-- Items that are found up to a bracket are spelled with commas between them. -/
theorem itemsUntil_sound (hitem : Sound (run item) Item) : Sound (run (itemsUntil close item))
    fun items text => ∃ front, Items Item items front ∧ text = front ++ [close] := by
  intro text
  induction hlength : text.length using Nat.strongRecOn generalizing text with
  | ind length ih =>
      intro items rest h
      rw [run_itemsUntil, Option.bind_eq_some_iff] at h
      obtain ⟨⟨first, afterFirst⟩, hfirst, h⟩ := h
      have hshorter := hlength ▸ length_lt_of_run hfirst
      obtain ⟨front, rfl, hfront⟩ := hitem _ _ _ hfirst
      obtain ⟨blanks, hblanks, hafter⟩ := skipBlanks_sound afterFirst
      split at h
      · next c more hmore =>
          rw [hmore] at hafter
          subst hafter
          split at h
          · next hcomma =>
              subst hcomma
              rw [Option.map_eq_some_iff] at h
              obtain ⟨⟨others, afterOthers⟩, hothers, heq⟩ := h
              cases heq
              have hless : more.length < length := by
                simp only [List.length_append, List.length_cons] at hshorter
                omega
              obtain ⟨_, rfl, back, hback, rfl⟩ := ih _ hless _ rfl _ _ hothers
              exact ⟨front ++ (blanks ++ ',' :: back) ++ [close], by simp, _,
                .more hfront hblanks hback, rfl⟩
          · split at h
            · next hclose =>
                subst hclose
                cases h
                exact ⟨front ++ blanks ++ [c], by simp, _, .one hfront hblanks, rfl⟩
            · contradiction
      · contradiction

/-- Items with commas between them are found up to their bracket. -/
theorem itemsUntil_complete (hitem : Complete (run item) Item (Avoids isOfNumber))
    (hclose : IsClosing close) : Complete (run (itemsUntil close item))
      (fun items text => ∃ front, Items Item items front ∧ text = front ++ [close])
      fun _ => True := by
  rintro items _ rest ⟨front, hitems, rfl⟩ -
  have hcomma : close ≠ ',' := by rcases hclose with rfl | rfl <;> decide
  rw [List.append_assoc, List.singleton_append]
  induction hitems with
  | one hfirst hblanks =>
      rw [run_itemsUntil, List.append_assoc,
        hitem _ _ _ hfirst (avoids_isOfNumber hblanks (.inr hclose)), Option.bind_some]
      simp only [skipBlanks_of_close hblanks (.inr hclose), if_neg hcomma, if_true]
  | more hfirst hblanks _ ih =>
      rw [run_itemsUntil, List.append_assoc, List.append_assoc, List.cons_append,
        hitem _ _ _ hfirst (avoids_isOfNumber hblanks (.inl rfl)), Option.bind_some]
      simp only [skipBlanks_of_close hblanks (.inl rfl), if_true, ih, Option.map_some]

/-- A bracket that comes at once closes a list without items. -/
theorem run_itemsOrNone (close : Char) (item : Reader α) (text : List Char) :
    run (itemsOrNone close item) text = match (skipBlanks text).1 with
      | c :: rest => if c = close then some ([], rest) else run (itemsUntil close item) text
      | [] => none := by
  unfold run itemsOrNone
  rcases skipBlanks text with ⟨_ | ⟨c, more⟩, le⟩
  · rfl
  · by_cases h : c = close <;> simp [h]

/-- Items that are found, if only none, are spelled with the bracket behind them. -/
theorem itemsOrNone_sound (hitem : Sound (run item) Item) :
    Sound (run (itemsOrNone close item)) (Enclosed close Item) := by
  intro text items rest h
  rw [run_itemsOrNone] at h
  obtain ⟨blanks, hblanks, htext⟩ := skipBlanks_sound text
  split at h
  · next c more hmore =>
      rw [hmore] at htext
      split at h
      · next hclose =>
          cases h
          exact ⟨blanks ++ [close], by simp [htext, hclose], .empty hblanks⟩
      · obtain ⟨_, rfl, front, hitems, rfl⟩ := itemsUntil_sound hitem _ _ _ h
        exact ⟨front ++ [close], rfl, .items hitems⟩
  · contradiction

/-- Items with their bracket are found, also where there are none. -/
theorem itemsOrNone_complete (hitem : Complete (run item) Item (Avoids isOfNumber))
    (hclose : IsClosing close) (hopens : ∀ item text, Item item text → Opens text) :
    Complete (run (itemsOrNone close item)) (Enclosed close Item) fun _ => True := by
  rintro items front rest henclosed -
  rw [run_itemsOrNone]
  cases henclosed with
  | empty hblanks =>
      rw [List.append_assoc, List.singleton_append]
      simp only [skipBlanks_of_close hblanks (.inr hclose), if_true]
  | @items _ text hitems =>
      have hread := itemsUntil_complete hitem hclose items _ rest ⟨text, hitems, rfl⟩ trivial
      obtain ⟨blanks, c, more, hblanks, hblank, hc, htext⟩ :=
        ((hitems.opens hopens).append [close]).append rest
      have hskip : (skipBlanks (text ++ [close] ++ rest)).1 = c :: more := by
        rw [htext]
        exact skipBlanks_complete hblanks fun d hd => by cases hd; exact Bool.eq_false_iff.2 hblank
      simp only [hskip, if_neg fun h : c = close => hc (h ▸ hclose), hread]

/-! ## Members and values -/

/-- A member is a name in quotes, a colon and a value. -/
theorem run_member (item : Reader α) (text : List Char) :
    run (member item) text = (run string (skipBlanks text).1).bind fun key =>
      match (skipBlanks key.2).1 with
      | ':' :: more => (run item more).map fun found => ((key.1, found.1), found.2)
      | _ => none := by
  rw [← run_afterBlanks]
  unfold run member
  cases afterBlanks string text with
  | none => rfl
  | some key =>
      simp only [Option.bind_eq_bind, Option.bind_some, Option.map_some]
      rcases skipBlanks key.rest with ⟨rest, le⟩
      split
      · next more le' heq =>
          cases heq
          cases hvalue : item more <;> simp [hvalue]
      · next h =>
          split
          · next more heq => exact absurd (Subtype.ext heq) (h more (heq ▸ le))
          · rfl

/-- A member whose value nests at most so deep. -/
def BoundedMember (bound : Nat) (member : String × Json) (text : List Char) : Prop :=
  Member member text ∧ member.2.depth ≤ bound

/-- A value after any blanks that nests at most so deep. -/
def BoundedElement (bound : Nat) (value : Json) (text : List Char) : Prop :=
  Element value text ∧ value.depth ≤ bound

/-- A member that is found is spelled by its name, the colon and its value. -/
theorem member_sound {item : Reader Json} {bound : Nat}
    (hitem : Sound (run item) (BoundedElement bound)) :
    Sound (run (member item)) (BoundedMember bound) := by
  intro text found rest h
  rw [run_member, Option.bind_eq_some_iff] at h
  obtain ⟨⟨key, afterKey⟩, hkey, h⟩ := h
  obtain ⟨before, hbefore, htext⟩ := skipBlanks_sound text
  obtain ⟨front, hfront, hquoted⟩ := string_sound _ _ _ hkey
  obtain ⟨after, hafter, hafterKey⟩ := skipBlanks_sound afterKey
  split at h
  · next more hmore =>
      rw [Option.map_eq_some_iff] at h
      obtain ⟨⟨value, afterValue⟩, hvalue, heq⟩ := h
      cases heq
      obtain ⟨back, rfl, helement, hdepth⟩ := hitem _ _ _ hvalue
      refine ⟨before ++ (front ++ (after ++ ':' :: back)), ?_,
        .mk hbefore hquoted hafter helement, hdepth⟩
      rw [htext, hfront, hafterKey, hmore]
      simp
  · contradiction

/-- Every member is found whose value nests no deeper than allowed. -/
theorem member_complete {item : Reader Json} {bound : Nat}
    (hitem : Complete (run item) (BoundedElement bound) (Avoids isOfNumber)) :
    Complete (run (member item)) (BoundedMember bound) (Avoids isOfNumber) := by
  rintro _ _ rest ⟨hmember, hdepth⟩ hrest
  cases hmember with
  | @mk key value before front after back hbefore hquoted hafter helement =>
      have hcolon : Avoids isBlank (':' :: (back ++ rest)) := by
        intro c hc
        cases hc
        rfl
      have htext : before ++ (front ++ (after ++ ':' :: back)) ++ rest =
          before ++ (front ++ (after ++ ':' :: (back ++ rest))) := by simp
      rw [htext, run_member, skipBlanks_complete hbefore (hquoted.avoids _),
        string_complete _ _ _ hquoted trivial, Option.bind_some]
      simp only [skipBlanks_complete hafter hcolon]
      rw [hitem _ _ _ ⟨helement, hdepth⟩ hrest]
      rfl

/-- What the reader of values does after the blanks. -/
def start : (bound : Nat) → List Char → Option (Json × List Char)
  | 0 => run leaf
  | bound + 1 => fun
      | '[' :: rest =>
          (run (itemsOrNone ']' (value bound)) rest).map fun found => (.array found.1, found.2)
      | '\x7b' :: rest =>
          (run (itemsOrNone '\x7d' (member (value bound))) rest).map fun found =>
            (.object found.1, found.2)
      | text => run leaf text

/-- An opening bracket begins an array or an object, and all else a value that nests nothing. -/
theorem start_succ (bound : Nat) (text : List Char) :
    start (bound + 1) text = match text with
      | '[' :: rest =>
          (run (itemsOrNone ']' (value bound)) rest).map fun found => (.array found.1, found.2)
      | '\x7b' :: rest =>
          (run (itemsOrNone '\x7d' (member (value bound))) rest).map fun found =>
            (.object found.1, found.2)
      | text => run leaf text :=
  rfl

/-- Blanks may stand in front of a value. -/
theorem run_value (bound : Nat) (text : List Char) :
    run (value bound) text = start bound (skipBlanks text).1 := by
  cases bound with
  | zero => exact run_afterBlanks leaf text
  | succ bound =>
      rw [value, run_afterBlanks, start_succ]
      generalize (skipBlanks text).1 = rest
      simp only [run]
      split <;> simp [Found.map, Found.widen, Function.comp_def]

/-- A value without blanks before it that nests at most so deep. -/
def BoundedBare (bound : Nat) (value : Json) (text : List Char) : Prop :=
  Bare value text ∧ value.depth ≤ bound

/-- An array is its brackets with the items in them, which nest one level less. -/
theorem boundedBare_array_iff {bound : Nat} {items : List Json} {text : List Char} :
    BoundedBare (bound + 1) (.array items) ('[' :: text) ↔
      Enclosed ']' (BoundedElement bound) items text := by
  constructor
  · rintro ⟨hvalue, hdepth⟩
    have hitems := depthOfItems_le_iff.1 (Nat.le_of_succ_le_succ hdepth)
    cases hvalue with
    | emptyArray hblanks => exact .empty hblanks
    | array helements => exact .items (items_and_iff.2 ⟨helements, hitems⟩)
  · rintro (hblanks | hitems)
    · exact ⟨.emptyArray hblanks, by simp [depth, depthOfItems]⟩
    · obtain ⟨helements, hdepth⟩ := items_and_iff.1 hitems
      exact ⟨.array helements, Nat.succ_le_succ (depthOfItems_le_iff.2 hdepth)⟩

/-- An object is its brackets with the members in them, whose values nest one level less. -/
theorem boundedBare_object_iff {bound : Nat} {members : List (String × Json)} {text : List Char} :
    BoundedBare (bound + 1) (.object members) ('\x7b' :: text) ↔
      Enclosed '\x7d' (BoundedMember bound) members text := by
  constructor
  · rintro ⟨hvalue, hdepth⟩
    have hvalues := depthOfMembers_le_iff.1 (Nat.le_of_succ_le_succ hdepth)
    cases hvalue with
    | emptyObject hblanks => exact .empty hblanks
    | object hmembers => exact .items (items_and_iff.2 ⟨hmembers, hvalues⟩)
  · rintro (hblanks | hitems)
    · exact ⟨.emptyObject hblanks, by simp [depth, depthOfMembers]⟩
    · obtain ⟨hmembers, hdepth⟩ := items_and_iff.1 hitems
      exact ⟨.object hmembers, Nat.succ_le_succ (depthOfMembers_le_iff.2 hdepth)⟩

/-- With blanks in front of it, a value that is found is an element. -/
theorem sound_afterBlanks {find : List Char → Option (Json × List Char)} {bound : Nat}
    (h : Sound find (BoundedBare bound)) :
    Sound (fun text => find (skipBlanks text).1) (BoundedElement bound) := by
  intro text found rest hfind
  obtain ⟨blanks, hblanks, htext⟩ := skipBlanks_sound text
  obtain ⟨front, hfront, hvalue, hdepth⟩ := h _ _ _ hfind
  exact ⟨blanks ++ front, by rw [htext, hfront, List.append_assoc], .mk hblanks hvalue, hdepth⟩

/-- An element is found where its value is found behind the blanks. -/
theorem complete_afterBlanks {find : List Char → Option (Json × List Char)} {bound : Nat}
    {Ends : List Char → Prop} (h : Complete find (BoundedBare bound) Ends) :
    Complete (fun text => find (skipBlanks text).1) (BoundedElement bound) Ends := by
  rintro found _ rest ⟨helement, hdepth⟩ hrest
  cases helement with
  | @mk _ blanks text hblanks hvalue =>
      have hskip : (skipBlanks (blanks ++ text ++ rest)).1 = text ++ rest := by
        rw [List.append_assoc]
        refine skipBlanks_complete hblanks fun c hc => ?_
        obtain ⟨d, more, hblank, -, rfl⟩ := hvalue.exists_cons
        cases hc
        exact Bool.eq_false_iff.2 hblank
      show find _ = _
      rw [hskip]
      exact h _ _ _ ⟨hvalue, hdepth⟩ hrest

/-- Values that nest nothing are found at every depth. -/
theorem sound_leaf (bound : Nat) : Sound (run leaf) (BoundedBare bound) := by
  intro text found rest h
  obtain ⟨front, rfl, hvalue, hdepth⟩ := leaf_sound _ _ _ h
  exact ⟨front, rfl, hvalue, Nat.le_trans hdepth (Nat.zero_le bound)⟩

/-- Array items and object members nest one level less than the value that holds them. -/
theorem start_sound {bound : Nat} (ih : Sound (run (value bound)) (BoundedElement bound)) :
    Sound (start (bound + 1)) (BoundedBare (bound + 1)) := by
  intro text found rest h
  rw [start_succ] at h
  split at h
  · rw [Option.map_eq_some_iff] at h
    obtain ⟨⟨items, afterItems⟩, hread, heq⟩ := h
    cases heq
    obtain ⟨front, rfl, henclosed⟩ := itemsOrNone_sound ih _ _ _ hread
    exact ⟨'[' :: front, rfl, boundedBare_array_iff.2 henclosed⟩
  · rw [Option.map_eq_some_iff] at h
    obtain ⟨⟨members, afterMembers⟩, hread, heq⟩ := h
    cases heq
    obtain ⟨front, rfl, henclosed⟩ := itemsOrNone_sound (member_sound ih) _ _ _ hread
    exact ⟨'\x7b' :: front, rfl, boundedBare_object_iff.2 henclosed⟩
  · exact sound_leaf _ _ _ _ h

/-- A text that opens no array and no object holds a value that nests nothing. -/
theorem start_of_avoids {bound : Nat} {text : List Char}
    (h : Avoids (fun c => c == '[' || c == '\x7b') text) : start bound text = run leaf text := by
  cases bound with
  | zero => rfl
  | succ bound =>
      rw [start_succ]
      split
      · next rest => simpa using h '[' rfl
      · next rest => simpa using h '\x7b' rfl
      · rfl

/-- A value that nests nothing opens no array and no object. -/
theorem avoids_of_depth_le {found : Json} {text : List Char} (h : Bare found text)
    (hdepth : found.depth ≤ 0) (rest : List Char) :
    Avoids (fun c => c == '[' || c == '\x7b') (text ++ rest) := by
  cases h with
  | number hnumber =>
      obtain ⟨d, more, hd, rfl⟩ := hnumber.exists_cons
      intro c hc
      cases hc
      rw [Bool.or_eq_false_iff, beq_eq_false_iff_ne, beq_eq_false_iff_ne]
      constructor <;> rintro rfl <;> revert hd <;> decide
  | string hquoted => cases hquoted; intro c hc; cases hc; rfl
  | null => intro c hc; cases hc; rfl
  | true => intro c hc; cases hc; rfl
  | false => intro c hc; cases hc; rfl
  | _ => simp [depth] at hdepth

/-- Every value that nests no deeper than allowed is found. -/
theorem start_complete {bound : Nat}
    (ih : Complete (run (value bound)) (BoundedElement bound) (Avoids isOfNumber)) :
    Complete (start (bound + 1)) (BoundedBare (bound + 1)) (Avoids isOfNumber) := by
  rintro found text rest ⟨hvalue, hdepth⟩ hrest
  by_cases hleaf : found.depth ≤ 0
  · rw [start_of_avoids (avoids_of_depth_le hvalue hleaf rest)]
    exact leaf_complete _ _ _ ⟨hvalue, hleaf⟩ hrest
  have harray {items : List Json} {front : List Char}
      (h : BoundedBare (bound + 1) (.array items) ('[' :: front)) :
      start (bound + 1) ('[' :: front ++ rest) = some (.array items, rest) := by
    have hread := itemsOrNone_complete ih (.inl rfl) (fun _ _ h => h.1.opens) _ _ rest
      (boundedBare_array_iff.1 h) trivial
    rw [List.cons_append, start_succ]
    simp only [hread, Option.map_some]
  have hobject {members : List (String × Json)} {front : List Char}
      (h : BoundedBare (bound + 1) (.object members) ('\x7b' :: front)) :
      start (bound + 1) ('\x7b' :: front ++ rest) = some (.object members, rest) := by
    have hread := itemsOrNone_complete (member_complete ih) (.inr rfl) (fun _ _ h => h.1.opens) _ _
      rest (boundedBare_object_iff.1 h) trivial
    rw [List.cons_append, start_succ]
    simp only [hread, Option.map_some]
  cases hvalue with
  | emptyArray hblanks => exact harray ⟨.emptyArray hblanks, hdepth⟩
  | array hitems => exact harray ⟨.array hitems, hdepth⟩
  | emptyObject hblanks => exact hobject ⟨.emptyObject hblanks, hdepth⟩
  | object hmembers => exact hobject ⟨.object hmembers, hdepth⟩
  | _ => exact absurd (Nat.le_refl 0) hleaf

/-- What the reader of values finds is an element that nests no deeper than allowed. -/
theorem value_sound (bound : Nat) : Sound (run (value bound)) (BoundedElement bound) := by
  rw [funext (run_value bound)]
  induction bound with
  | zero => exact sound_afterBlanks (sound_leaf 0)
  | succ bound ih =>
      rw [← funext (run_value bound)] at ih
      exact sound_afterBlanks (start_sound ih)

/-- The reader of values finds every element that nests no deeper than allowed. -/
theorem value_complete (bound : Nat) :
    Complete (run (value bound)) (BoundedElement bound) (Avoids isOfNumber) := by
  rw [funext (run_value bound)]
  induction bound with
  | zero => exact complete_afterBlanks leaf_complete
  | succ bound ih =>
      rw [← funext (run_value bound)] at ih
      exact complete_afterBlanks (start_complete ih)

end Reader

open Grammar in
/-- A text is read if and only if it is one document that nests no deeper than allowed, and this
document is what is found. -/
theorem read_eq_some_iff {bound : Nat} {source : String} {root : Json} :
    read bound source = some root ↔ Document root source ∧ root.depth ≤ bound := by
  constructor
  · intro h
    obtain ⟨found, hfound, h⟩ := Option.bind_eq_some_iff.1 h
    have hrun : Reader.run (Reader.value bound) source.toList = some (found.value, found.rest) := by
      rw [Reader.run, hfound, Option.map_some]
    obtain ⟨front, hsource, helement, hdepth⟩ := Reader.value_sound bound _ _ _ hrun
    obtain ⟨blanks, hblanks, hrest⟩ := Reader.skipBlanks_sound found.rest
    split at h
    · next hend =>
        cases h
        rw [hend, List.append_nil] at hrest
        exact ⟨.mk helement hblanks (hrest ▸ hsource), hdepth⟩
    · contradiction
  · rintro ⟨hdocument, hdepth⟩
    cases hdocument with
    | @mk text blanks helement hblanks hsource =>
        have hend : Avoids isOfNumber blanks := by
          rw [← List.append_nil blanks]
          exact hblanks.avoids Reader.isOfNumber_of_isBlank
            fun c hc => absurd hc (Option.not_mem_none c)
        have hrun := Reader.value_complete bound _ _ _ ⟨helement, hdepth⟩ hend
        rw [← hsource] at hrun
        obtain ⟨found, hfound, heq⟩ := Option.map_eq_some_iff.1 hrun
        cases heq
        have hskip : (Reader.skipBlanks found.rest).1 = [] := by
          rw [← List.append_nil found.rest]
          exact Reader.skipBlanks_complete hblanks
            fun c hc => absurd hc (Option.not_mem_none c)
        simp [read, hfound, hskip]

end AtomicRules.Json

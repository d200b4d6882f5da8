import AtomicRules.Request
import Mathlib.Data.List.Forall2

/-!
# Equal blocks

Blocks that are equal as values, where zero equals minus zero, ask for the same
(`requests_of_equalBlocks`): equal leaves are written alike, and so are the animations whose stages
hold equal leaves.
-/

namespace AtomicRules

/-- Equal numbers have the same text under every property. Only the two zeros are equal without
being the same, and no sign is written on either. -/
theorem Property.number_of_beq {x y : Binary64} (h : (x == y) = true) (property : String) :
    Property.number property x = Property.number property y := by
  obtain ⟨-, rfl | ⟨hx, hy⟩⟩ := Binary64.beq_iff.1 h
  · rfl
  · simp [Property.number, Binary64.isZero, hx, hy]

/-- A function that does not tell related elements apart picks the same from related lists. -/
theorem filterMap_of_forall₂ {α β : Type} {R : α → α → Prop} {f : α → Option β}
    (hf : ∀ a b, R a b → f a = f b) {as bs : List α} (h : List.Forall₂ R as bs) :
    as.filterMap f = bs.filterMap f := by
  induction h with
  | nil => rfl
  | cons hhead _ ih => rw [List.filterMap_cons, List.filterMap_cons, hf _ _ hhead, ih]

namespace Value

/-! ## Equal leaves -/

/-- Equal values are leaves with the same text, or no leaves. -/
theorem css_of_equal {a b : Value} (h : equal a b = true) (property : String) :
    a.scalar?.map (·.css property) = b.scalar?.map (·.css property) := by
  match a, b, h with
  | .null, .null, _ => rfl
  | .bool _, .bool _, _ => rfl
  | .text x, .text y, h =>
      have hxy : x = y := eq_of_beq h
      rw [hxy]
  | .number x, .number y, h => exact congrArg some (Property.number_of_beq h property)
  | .list _, .list _, _ => rfl
  | .block _, .block _, _ => rfl

/-- Equal values are blank together. -/
theorem isBlank_of_equal {a b : Value} (h : equal a b = true) : a.isBlank = b.isBlank := by
  match a, b, h with
  | .null, .null, _ => rfl
  | .bool x, .bool y, h =>
      have hxy : x = y := eq_of_beq h
      rw [hxy]
  | .text x, .text y, h =>
      have hxy : x = y := eq_of_beq h
      rw [hxy]
  | .number _, .number _, _ => rfl
  | .list _, .list _, _ => rfl
  | .block _, .block _, _ => rfl

/-! ## Equal lists -/

/-- Equal lists have equal items at equal places. -/
theorem forall₂_of_equalItems {as bs : List Value} (h : equalItems as bs = true) :
    List.Forall₂ (fun a b => equal a b = true) as bs := by
  induction as generalizing bs with
  | nil =>
      cases bs with
      | nil => exact .nil
      | cons => contradiction
  | cons a as ih =>
      cases bs with
      | nil => contradiction
      | cons b bs =>
          obtain ⟨hhead, htail⟩ := Bool.and_eq_true_iff.1 h
          exact .cons hhead (ih htail)

/-- Equal entries have the same keys and equal values at equal places. -/
theorem forall₂_of_equalEntries {as bs : List (String × Value)} (h : equalEntries as bs = true) :
    List.Forall₂ (fun a b => a.1 = b.1 ∧ equal a.2 b.2 = true) as bs := by
  induction as generalizing bs with
  | nil =>
      cases bs with
      | nil => exact .nil
      | cons => contradiction
  | cons a as ih =>
      cases bs with
      | nil => contradiction
      | cons b bs =>
          obtain ⟨hhead, htail⟩ := Bool.and_eq_true_iff.1 h
          obtain ⟨hkey, hvalue⟩ := Bool.and_eq_true_iff.1 hhead
          exact .cons ⟨eq_of_beq hkey, hvalue⟩ (ih htail)

end Value

open Value

namespace Block

/-! ## Equal animations -/

/-- Equal blocks have the same declarations. -/
theorem declarations_of_equal {a b : Block} (h : equalBlocks a b = true) :
    a.declarations = b.declarations := by
  obtain ⟨as⟩ := a
  obtain ⟨bs⟩ := b
  refine congrArg String.join (filterMap_of_forall₂ ?_ (forall₂_of_equalEntries h))
  rintro ⟨key, x⟩ ⟨_, y⟩ ⟨rfl, hxy⟩
  have hcss := congrArg (Option.map (Rule.declaration (Key.normalize key)))
    (css_of_equal hxy (Key.normalize key))
  rwa [Option.map_map, Option.map_map] at hcss

/-- Equal blocks are the stages of the same animation. -/
theorem keyframes_of_equal {a b : Block} (h : equalBlocks a b = true) (label : String) :
    a.keyframes label = b.keyframes label := by
  obtain ⟨as⟩ := a
  obtain ⟨bs⟩ := b
  refine congrArg (fun stages => Rule.labelled label (String.join stages))
    (filterMap_of_forall₂ ?_ (forall₂_of_equalEntries h))
  rintro ⟨stage, x⟩ ⟨_, y⟩ ⟨rfl, hxy⟩
  match x, y, hxy with
  | .null, .null, _ => rfl
  | .bool _, .bool _, _ => rfl
  | .text _, .text _, _ => rfl
  | .number _, .number _, _ => rfl
  | .list _, .list _, _ => rfl
  | .block _, .block _, hxy =>
      exact congrArg (fun body => some (Rule.labelled stage body)) (declarations_of_equal hxy)

end Block

/-! ## Equal requests -/

/-- Equal values are leaves with the same atom, or no leaves. -/
theorem atom_of_equal {a b : Value} (h : equal a b = true) (scope : Scope) (piece : String) :
    (a.scalar?.map fun leaf => Request.atom (scope.atom piece leaf)) =
      b.scalar?.map fun leaf => Request.atom (scope.atom piece leaf) := by
  have hcss := congrArg (Option.map fun value =>
    Request.atom ⟨scope.media?, scope.selectors, piece, value⟩) (css_of_equal h piece)
  rwa [Option.map_map, Option.map_map] at hcss

mutual

/-- Equal values ask for the same, whatever is around them. -/
theorem requests_of_equal {a b : Value} (h : equal a b = true) (scope : Scope) (piece : String) :
    a.requests scope piece = b.requests scope piece := by
  match a, b, h with
  | .null, .null, _ => rfl
  | .bool _, .bool _, _ => rfl
  | .text x, .text y, h =>
      have hxy : x = y := eq_of_beq h
      rw [hxy]
  | .number x, .number y, h =>
      have hatom := atom_of_equal (a := .number x) (b := .number y) h scope piece
      exact congrArg (fun request => [request]) (Option.some.inj hatom)
  | .list as, .list bs, h =>
      apply filterMap_of_forall₂ (R := fun a b => equal a b = true)
      · intro a b hab
        exact atom_of_equal hab scope piece
      · exact forall₂_of_equalItems h
  | .block a, .block b, h =>
      rw [Value.requests, Value.requests, Block.keyframes_of_equal h,
        requests_of_equalBlocks h, requests_of_equalBlocks h]

/-- Equal blocks ask for the same, whatever is around them. -/
theorem requests_of_equalBlocks {a b : Block} (h : equalBlocks a b = true) (scope : Scope) :
    a.requests scope = b.requests scope := by
  match a, b, h with
  | ⟨as⟩, ⟨bs⟩, h => exact requestsOfEntries_of_equal h scope

/-- Equal entries ask for the same, whatever is around them. -/
theorem requestsOfEntries_of_equal {as bs : List (String × Value)}
    (h : equalEntries as bs = true) (scope : Scope) :
    Block.requestsOfEntries scope as = Block.requestsOfEntries scope bs := by
  match as, bs, h with
  | [], [], _ => rfl
  | (key, a) :: as, (other, b) :: bs, h =>
      obtain ⟨hhead, htail⟩ := Bool.and_eq_true_iff.1 h
      obtain ⟨hkey, hvalue⟩ := Bool.and_eq_true_iff.1 hhead
      have hsame : key = other := eq_of_beq hkey
      have hpieces (piece : String) : a.requests scope piece = b.requests scope piece :=
        requests_of_equal hvalue scope piece
      rw [Block.requestsOfEntries, Block.requestsOfEntries, requestsOfEntries_of_equal htail scope,
        isBlank_of_equal hvalue, hsame]
      simp only [hpieces]

end

end AtomicRules

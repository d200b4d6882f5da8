import AtomicRules.Proofs.Duplicates
import Mathlib.Data.Fintype.Card
import Mathlib.Data.List.Forall2
import Mathlib.Data.List.NodupEquivFin

/-!
# Blocks in another order

The order in which blocks are compiled decides which of them makes a rule and what number it gets,
but not which rules there are. Two sessions that have answered the same requests, in whatever order,
have the same rules up to a bijection of their indices (`Remembers.exists_equiv`), and so have two
runs that compile the same blocks (`mapM_compile_perm`).
-/

namespace AtomicRules

/-! ## Lists with the same elements -/

/-- Two lists with the same elements and without repetitions are one list up to a bijection of their
indices. -/
theorem exists_equiv_getElem? {α : Type} [DecidableEq α] {first second : List α}
    (hfirst : first.Nodup) (hsecond : second.Nodup)
    (hmem : ∀ item, item ∈ first ↔ item ∈ second) :
    ∃ s : Fin first.length ≃ Fin second.length,
      ∀ i : Fin first.length, second[(s i : Nat)]? = first[(i : Nat)]? := by
  -- an index stands for its element, and the element for its index in the other list
  refine ⟨(hfirst.getEquiv first).trans
    ((Equiv.subtypeEquivRight hmem).trans (hsecond.getEquiv second).symm), ?_⟩
  intro i
  have hitem : first[i] ∈ second := (hmem _).1 (List.getElem_mem i.isLt)
  show second[second.idxOf first[i]]? = _
  rw [List.getElem?_eq_getElem (List.idxOf_lt_length_of_mem hitem), List.getElem_idxOf]
  exact (List.getElem?_eq_getElem i.isLt).symm

/-- Partial functions that are defined on all elements of a list, with values that belong together,
have lists of values that belong together. -/
theorem forall₂_filterMap {α β γ : Type} {R : β → γ → Prop} {f : α → Option β} {g : α → Option γ}
    {items : List α} (h : ∀ item ∈ items, ∃ x y, f item = some x ∧ g item = some y ∧ R x y) :
    List.Forall₂ R (items.filterMap f) (items.filterMap g) := by
  induction items with
  | nil => exact .nil
  | cons item rest ih =>
      obtain ⟨x, y, hx, hy, hxy⟩ := h item (by simp)
      rw [List.filterMap_cons_some hx, List.filterMap_cons_some hy]
      exact .cons hxy (ih fun other hother => h other (by simp [hother]))

namespace Session

variable {σ τ : Type}

/-! ## The request behind a rule -/

/-- The rule at an index was made for the request: it is the rule of the request with this number,
and the session knows the request, an atom with the class of this number. -/
structure MadeFor (stem : String) (session : Session σ) (request : Request) (index : Nat) :
    Prop where
  rule : session.rules[index]? = some (request.rule stem index)
  known : session.known? request = some (request.class? stem index)

/-- The atom that a rule was made for has the class with the number of the rule. -/
theorem MadeFor.get?_classes {stem : String} {session : Session σ} {atom : Atom} {index : Nat}
    (h : session.MadeFor stem (.atom atom) index) :
    session.classes.get? atom = some (ClassName.make stem index) := by
  obtain ⟨name, hname, hsame⟩ := Option.map_eq_some_iff.1 h.known
  exact hname.trans hsame

/-- The rules of a session were made for the requests that it has answered, each for the one at its
place. -/
theorem Remembers.madeFor_iff {session : Session σ} {past : List Request}
    (h : session.Remembers past) (hproper : ∀ request ∈ past, request.Proper)
    {request : Request} {index : Nat} :
    session.MadeFor session.settings.stem request index ↔
      past.eraseDups[index]? = some request := by
  constructor
  · intro hmade
    have hmem : request ∈ past := by
      rw [← h.isSome_known?, hmade.known]
      rfl
    cases request with
    | atom atom =>
        -- the class tells the number
        have hplace : past.eraseDups.idxOf (.atom atom) = index :=
          ClassName.make_inj (Option.some.inj
            ((h.get?_classes hmem).symm.trans hmade.get?_classes))
        rw [← hplace, List.getElem?_eq_getElem
          (List.idxOf_lt_length_of_mem (List.mem_eraseDups.2 hmem)), List.getElem_idxOf]
    | keyframes text =>
        -- the text tells the request, for it is not that of an atom
        have hrule := hmade.rule
        rw [h.rules, List.getElem?_mapIdx, Option.map_eq_some_iff] at hrule
        obtain ⟨other, hother, hsame⟩ := hrule
        have hotherMem := List.mem_eraseDups.1 (List.mem_of_getElem? hother)
        cases other with
        | atom atom =>
            exact absurd hsame (Request.rule_atom_ne_rule_keyframes (hproper _ hotherMem)
              (hproper _ hmem))
        | keyframes otherText =>
            rw [hother]
            exact congrArg (some ∘ Request.keyframes) hsame
  · intro hindex
    obtain ⟨hlt, hrequest⟩ := List.getElem?_eq_some_iff.1 hindex
    have hmem := List.mem_eraseDups.1 (List.mem_of_getElem? hindex)
    have hplace : past.eraseDups.idxOf request = index := by
      rw [← hrequest, (nodup_eraseDups past).idxOf_getElem]
    refine ⟨?_, ?_⟩
    · rw [← hplace]
      exact h.getElem?_rules hmem
    · rw [h.known, if_pos hmem, hplace]

/-- Every rule was made for one request. -/
theorem Remembers.existsUnique_madeFor {session : Session σ} {past : List Request}
    (h : session.Remembers past) (hproper : ∀ request ∈ past, request.Proper)
    (i : Fin session.rules.length) :
    ∃! request, session.MadeFor session.settings.stem request i := by
  have hlt : (i : Nat) < past.eraseDups.length := i.isLt.trans_eq h.length_rules
  simp only [h.madeFor_iff hproper, List.getElem?_eq_getElem hlt, Option.some.injEq]
  exact ⟨_, rfl, fun request hrequest => hrequest.symm⟩

/-- Every request that was answered has a rule. -/
theorem Remembers.exists_madeFor {session : Session σ} {past : List Request}
    (h : session.Remembers past) {request : Request} (hmem : request ∈ past) :
    ∃ i : Fin session.rules.length, session.MadeFor session.settings.stem request i := by
  have hlt : past.eraseDups.idxOf request < session.rules.length := by
    rw [h.length_rules]
    exact List.idxOf_lt_length_of_mem (List.mem_eraseDups.2 hmem)
  refine ⟨⟨past.eraseDups.idxOf request, hlt⟩, h.getElem?_rules hmem, ?_⟩
  rw [h.known, if_pos hmem]

/-! ## Two orders -/

variable {first : Session σ} {second : Session τ} {past otherPast : List Request}

/-- Sessions that have answered the same requests, whatever the order, have the same rules up to a
bijection of their indices. -/
theorem Remembers.exists_equiv (h : first.Remembers past) (hother : second.Remembers otherPast)
    (hproper : ∀ request ∈ past, request.Proper)
    (hmem : ∀ request, request ∈ past ↔ request ∈ otherPast) :
    ∃ s : Fin first.rules.length ≃ Fin second.rules.length, ∀ (i : Fin _) request,
      first.MadeFor first.settings.stem request i ↔
        second.MadeFor second.settings.stem request (s i) := by
  have hotherProper : ∀ request ∈ otherPast, request.Proper :=
    fun request hrequest => hproper request ((hmem request).2 hrequest)
  obtain ⟨s, hs⟩ := exists_equiv_getElem? (nodup_eraseDups past) (nodup_eraseDups otherPast)
    (by simpa only [List.mem_eraseDups] using hmem)
  refine ⟨(finCongr h.length_rules).trans (s.trans (finCongr hother.length_rules.symm)), ?_⟩
  intro i request
  have hsame := hs (finCongr h.length_rules i)
  rw [h.madeFor_iff hproper, hother.madeFor_iff hotherProper]
  exact iff_of_eq (congrArg (· = some request) hsame.symm)

/-- Sessions that know the same requests have the same atoms and animations in memory. -/
theorem Remembers.contains_eq (h : first.Remembers past) (hother : second.Remembers otherPast)
    (hmem : ∀ request, request ∈ past ↔ request ∈ otherPast) :
    (∀ atom, first.classes.contains atom = second.classes.contains atom) ∧
      ∀ rule, first.keyframes.contains rule = second.keyframes.contains rule := by
  have hknown (request : Request) :
      (first.known? request).isSome = (second.known? request).isSome := by
    rw [Bool.eq_iff_iff, h.isSome_known?, hother.isSome_known?, hmem]
  refine ⟨?_, ?_⟩
  · intro atom
    have hatom := hknown (.atom atom)
    rwa [known?_atom, known?_atom, Option.isSome_map, Option.isSome_map] at hatom
  · intro rule
    have hrule := hknown (.keyframes rule)
    rwa [known?_keyframes, known?_keyframes, Option.isSome_map, Option.isSome_map] at hrule

/-- Where the rules of two sessions correspond, so do the classes that they have for atoms that were
asked for. -/
theorem Remembers.forall₂_classes (h : first.Remembers past)
    {s : Fin first.rules.length ≃ Fin second.rules.length}
    (hs : ∀ (i : Fin _) request, first.MadeFor first.settings.stem request i ↔
      second.MadeFor second.settings.stem request (s i))
    {atoms : List Atom} (hatoms : ∀ atom ∈ atoms, Request.atom atom ∈ past) :
    List.Forall₂ (fun name otherName => ∃ i : Fin _, name = ClassName.make first.settings.stem i ∧
      otherName = ClassName.make second.settings.stem (s i))
      (atoms.filterMap first.classes.get?) (atoms.filterMap second.classes.get?) := by
  apply forall₂_filterMap
  intro atom hatom
  obtain ⟨i, hi⟩ := h.exists_madeFor (hatoms atom hatom)
  have hother := (hs i (.atom atom)).1 hi
  exact ⟨_, _, hi.get?_classes, hother.get?_classes, i, rfl, rfl⟩

variable [LiveSheet σ] [LiveSheet τ]

/-- A fresh session that compiles blocks has answered their requests, and it has its settings. -/
theorem Fresh.remembers_mapM_compile {settings : Settings} {fresh : Session σ}
    (h : Fresh settings fresh) (blocks : List Block) :
    (blocks.mapM compile fresh).2.Remembers (blocks.flatMap (·.requests Scope.root)) ∧
      (blocks.mapM compile fresh).2.settings = settings := by
  rw [mapM_compile_snd, settings_answerAll, h.settings_eq]
  have hremembers := h.remembers.answerAll (blocks.flatMap (·.requests Scope.root))
  rw [List.nil_append] at hremembers
  exact ⟨hremembers, rfl⟩

/-- The order in which blocks are compiled does not matter up to the numbers of the rules. Two
sessions with one stem that compile the same blocks in different orders have the same number of
rules and the same atoms and animations in memory, and a bijection takes the rule of each request in
the one session to its rule in the other. An animation has the same rule at both places, and an atom
has the rule with the number of the place. The classes that a block gets in the two runs correspond
one by one. -/
theorem mapM_compile_perm {settings other : Settings} {first : Session σ} {second : Session τ}
    (h : Fresh settings first) (hother : Fresh other second) (hstem : settings.stem = other.stem)
    {blocks permuted : List Block} (hperm : blocks.Perm permuted) :
    let run := blocks.mapM compile first
    let otherRun := permuted.mapM compile second
    run.2.rules.length = otherRun.2.rules.length ∧
      (∀ atom, run.2.classes.contains atom = otherRun.2.classes.contains atom) ∧
      (∀ rule, run.2.keyframes.contains rule = otherRun.2.keyframes.contains rule) ∧
      ∃ s : Fin run.2.rules.length ≃ Fin otherRun.2.rules.length,
        (∀ i : Fin run.2.rules.length, ∃! request, run.2.MadeFor settings.stem request i) ∧
        (∀ (i : Fin run.2.rules.length) request, run.2.MadeFor settings.stem request i ↔
          otherRun.2.MadeFor settings.stem request (s i)) ∧
        ∀ (place otherPlace : Nat) (block : Block),
          blocks[place]? = some block → permuted[otherPlace]? = some block →
          ∃ names otherNames, run.1[place]? = some names ∧
            otherRun.1[otherPlace]? = some otherNames ∧
            List.Forall₂ (fun name otherName => ∃ i : Fin run.2.rules.length,
              name = ClassName.make settings.stem i ∧
                otherName = ClassName.make settings.stem (s i)) names otherNames := by
  intro run otherRun
  have hmem (request : Request) : request ∈ blocks.flatMap (·.requests Scope.root) ↔
      request ∈ permuted.flatMap (·.requests Scope.root) :=
    (hperm.flatMap_right _).mem_iff
  have hproper : ∀ request ∈ blocks.flatMap (·.requests Scope.root), request.Proper := by
    intro request hrequest
    obtain ⟨block, -, hblock⟩ := List.mem_flatMap.1 hrequest
    exact Block.proper_of_mem_requests hblock
  obtain ⟨hrun, hsettings⟩ := h.remembers_mapM_compile blocks
  obtain ⟨hotherRun, hotherSettings⟩ := hother.remembers_mapM_compile permuted
  obtain ⟨hatoms, hkeyframes⟩ := hrun.contains_eq hotherRun hmem
  obtain ⟨s, hs⟩ := hrun.exists_equiv hotherRun hproper hmem
  have hlength : run.2.rules.length = otherRun.2.rules.length := by
    simpa using Fintype.card_congr s
  have hclasses (block : Block) (hblock : block ∈ blocks) :
      ∀ atom ∈ block.atoms, Request.atom atom ∈ blocks.flatMap (·.requests Scope.root) := by
    intro atom hatom
    exact List.mem_flatMap.2 ⟨block, hblock, Block.mem_atoms.1 hatom⟩
  have hnames (block : Block) (hblock : block ∈ blocks) :=
    hrun.forall₂_classes hs (hclasses block hblock)
  rw [hsettings, hotherSettings, ← hstem] at hs hnames
  refine ⟨hlength, hatoms, hkeyframes, s, ?_, hs, ?_⟩
  · intro i
    have hone := hrun.existsUnique_madeFor hproper i
    rwa [hsettings] at hone
  · intro place otherPlace block hblock hotherBlock
    refine ⟨block.atoms.filterMap run.2.classes.get?,
      block.atoms.filterMap otherRun.2.classes.get?, ?_, ?_, ?_⟩
    · rw [mapM_compile_fst (Extends.refl _), List.getElem?_map, hblock]
      rfl
    · rw [mapM_compile_fst (Extends.refl _), List.getElem?_map, hotherBlock]
      rfl
    · exact hnames block (List.mem_of_getElem? hblock)

/-- Two blocks share a leaf, and one of them has an animation. In the other order the other block
makes the rule of the leaf, and the animation comes last. -/
theorem mapM_compile_perm_bounded :
    let first : Session BoundedSheet := start { stem := "x", debug := true }
    let second : Session BoundedSheet := (attach { stem := "x" } none (BoundedHost.mk 1)).1
    let spin := Block.ofList [("to", Block.ofList [("left", (1 : Int))])]
    let drop : Block := (Block.empty.insert "@keyframes drop" spin).insert "color" "red"
    let shift : Block := (Block.empty.insert "left" "0").insert "color" "red"
    Fresh { stem := "x", debug := true } first ∧ Fresh { stem := "x" } second ∧
      [drop, shift].Perm [shift, drop] ∧
      ([drop, shift].mapM compile first).2.rules =
        ["@keyframes drop\x7bto\x7bleft:1px;\x7d\x7d", ".x1\x7bcolor:red;\x7d",
          ".x2\x7bleft:0;\x7d"] ∧
      ([shift, drop].mapM compile second).2.rules =
        [".x0\x7bleft:0;\x7d", ".x1\x7bcolor:red;\x7d",
          "@keyframes drop\x7bto\x7bleft:1px;\x7d\x7d"] ∧
      ([drop, shift].mapM compile first).1 = [["x1"], ["x2", "x1"]] ∧
      ([shift, drop].mapM compile second).1 = [["x0", "x1"], ["x1"]] ∧
      ∃ s : Fin ([drop, shift].mapM compile first).2.rules.length ≃
          Fin ([shift, drop].mapM compile second).2.rules.length,
        ∀ (i : Fin _) request, ([drop, shift].mapM compile first).2.MadeFor "x" request i ↔
          ([shift, drop].mapM compile second).2.MadeFor "x" request (s i) := by
  intro first second spin drop shift
  have hfirst : Fresh { stem := "x", debug := true } first := .start
  have hsecond : Fresh { stem := "x" } second := .attach none (BoundedHost.mk 1)
  have hperm : [drop, shift].Perm [shift, drop] := .swap shift drop []
  obtain ⟨-, -, -, s, -, hs, -⟩ := mapM_compile_perm hfirst hsecond rfl hperm
  exact ⟨hfirst, hsecond, hperm, by decide +kernel, by decide +kernel, by decide +kernel,
    by decide +kernel, s, hs⟩

end Session

end AtomicRules

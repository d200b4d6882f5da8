import AtomicRules.Proofs.Numbering
import Mathlib.Data.List.Induction
import Mathlib.Data.List.Nodup

/-!
# Stems that keep class names apart

A class name is a stem and a number with nothing between them, so a name can belong to two stems at
once: `t10` has the number 36 under `t` and the number 0 under `t1`. This happens exactly when one
stem is the other one with digits after it, the first of them not zero (`exists_make_eq_make_iff`).
Two sessions under any other stems never give the same name (`disjoint_names_iff`).
-/

namespace AtomicRules

/-! ## Numerals -/

namespace Text.Radix

/-- A list of digits that does not begin with zero has the digits of its value. -/
theorem digits_value {base : Nat} (hbase : 1 < base) {list : List Nat}
    (hlt : ∀ digit ∈ list, digit < base) (hhead : list.head? ≠ some 0) :
    digits base (value base list) = list := by
  induction list using List.reverseRecOn with
  | nil => exact digits_zero base
  | append_singleton high digit ih =>
      have hdigit : digit < base := hlt digit (by simp)
      have hhigh : digits base (value base high) = high := by
        apply ih (fun other hother => hlt other (by simp [hother]))
        intro hzero
        rw [List.head?_append, hzero] at hhead
        exact hhead rfl
      have hpos : 0 < base * value base high + digit := by
        cases high with
        | nil =>
            have hne : digit ≠ 0 := by simpa using hhead
            omega
        | cons first rest =>
            -- the value of the digits before the last one is not zero, for zero has no digits
            have hvalue : value base (first :: rest) ≠ 0 := by
              intro hzero
              rw [hzero, digits_zero] at hhigh
              contradiction
            have := Nat.mul_pos (Nat.zero_lt_of_lt hbase) (Nat.pos_of_ne_zero hvalue)
            omega
      rw [value_append_singleton, digits_eq_append hbase hpos,
        Nat.mul_add_div (Nat.zero_lt_of_lt hbase), Nat.div_eq_of_lt hdigit, Nat.add_zero,
        Nat.mul_add_mod, Nat.mod_eq_of_lt hdigit, hhigh]

end Text.Radix

open Text.Radix

namespace ClassName

/-- The characters that the numbers of class names are written with. -/
def isDigit (c : Char) : Bool :=
  c.isDigit || c.isLower

/-- A digit stands for a number below the base, and this number is written as the digit. -/
theorem digitChar_digitValue {c : Char} (h : isDigit c) :
    digitValue c < base ∧ digitChar (digitValue c) = c := by
  have hlt : c.toNat < 128 := by
    have hrange : c.isDigit ∨ c.isLower := by simpa [isDigit] using h
    rcases hrange with hdigit | hlower
    · have hnine : '9'.toNat = 57 := rfl
      rw [Char.isDigit_iff_toNat] at hdigit
      omega
    · obtain ⟨-, hlast⟩ := Bool.and_eq_true_iff.1 hlower
      have hz : c.val.toNat ≤ 122 := UInt32.le_iff_toNat_le.1 (of_decide_eq_true hlast)
      rw [Char.toNat_val] at hz
      omega
  have hall : ∀ n < 128, isDigit (Char.ofNat n) → digitValue (Char.ofNat n) < base ∧
      digitChar (digitValue (Char.ofNat n)) = Char.ofNat n := by decide
  have hchar := hall c.toNat hlt
  rw [Char.ofNat_toNat] at hchar
  exact hchar h

/-- Numerals have digits only. -/
theorem isDigit_of_mem_numeral {n : Nat} {c : Char} (h : c ∈ numeral base n) : isDigit c := by
  unfold numeral at h
  split at h
  · rw [List.mem_singleton.1 h]
    rfl
  · obtain ⟨digit, hdigit, rfl⟩ := List.mem_map.1 h
    have hlt := lt_of_mem_digits (by decide : 1 < base) hdigit
    exact (by decide : ∀ digit < base, isDigit (digitChar digit)) digit hlt

/-- Only the numeral of zero begins with a zero. -/
theorem numeral_of_head? {n : Nat} (h : (numeral base n).head? = some '0') :
    numeral base n = ['0'] := by
  unfold numeral at h ⊢
  split
  · rfl
  · next hn =>
      rw [if_neg hn] at h
      have hhead := head?_digits_ne_zero (n := n) (by decide : 1 < base)
      cases hdigits : digits base n with
      | nil => simp [hdigits] at h
      | cons first rest =>
          have hlt : first < base := lt_of_mem_digits (by decide) (hdigits ▸ List.mem_cons_self)
          have hzero : digitChar first = '0' := by simpa [hdigits] using h
          have hvalue : digitValue (digitChar first) = first := digitValue_digitChar hlt
          have hfirst : first = 0 := by
            rw [← hvalue, hzero]
            rfl
          simp [hdigits, hfirst] at hhead

/-- Every text of digits that does not begin with a zero is a numeral. -/
theorem exists_numeral_eq {text : List Char} (hne : text ≠ []) (hdigits : ∀ c ∈ text, isDigit c)
    (hhead : text.head? ≠ some '0') : ∃ n, numeral base n = text := by
  have hvalues : digits base (ofNumeral base text) = text.map digitValue := by
    apply digits_value (by decide)
    · intro digit hdigit
      obtain ⟨c, hc, rfl⟩ := List.mem_map.1 hdigit
      exact (digitChar_digitValue (hdigits c hc)).1
    · cases text with
      | nil => contradiction
      | cons c rest =>
          intro hzero
          have hvalue : digitValue c = 0 := by simpa using hzero
          have hc := (digitChar_digitValue (hdigits c (by simp))).2
          rw [hvalue] at hc
          exact hhead (by rw [← hc]; rfl)
  have hpos : ofNumeral base text ≠ 0 := by
    intro hzero
    rw [hzero, digits_zero] at hvalues
    exact hne (List.map_eq_nil_iff.1 hvalues.symm)
  refine ⟨ofNumeral base text, ?_⟩
  rw [numeral, if_neg hpos, hvalues, List.map_map]
  have hsame : text.map (digitChar ∘ digitValue) = text.map id :=
    List.map_congr_left fun c hc => (digitChar_digitValue (hdigits c hc)).2
  rw [hsame, List.map_id]

/-! ## Names of two stems -/

/-- The longer stem is the other one, or it goes on from there with digits of which the first is
not zero. -/
def Continues (stem longer : String) : Prop :=
  ∃ more : List Char, longer.toList = stem.toList ++ more ∧ (∀ c ∈ more, isDigit c) ∧
    more.head? ≠ some '0'

theorem toList_make (stem : String) (n : Nat) :
    (make stem n).toList = stem.toList ++ numeral base n := by
  rw [make, String.toList_append, String.toList_ofList]

/-- A numeral that goes on after another text begins with the same digit as that text. -/
theorem head?_ne_zero_of_numeral_eq {more : List Char} {m n : Nat}
    (h : numeral base m = more ++ numeral base n) : more.head? ≠ some '0' := by
  intro hzero
  have hone : numeral base m = ['0'] := by
    apply numeral_of_head?
    rw [h, List.head?_append, hzero]
    rfl
  -- two digits at least, and no numeral of two digits begins with zero
  have hlength := congrArg List.length (hone.symm.trans h)
  have hmore : more ≠ [] := by
    rintro rfl
    contradiction
  have hnumeral := numeral_ne_nil (by decide : 1 < base) n
  have hfirst := List.length_pos_of_ne_nil hmore
  have hsecond := List.length_pos_of_ne_nil hnumeral
  rw [List.length_append, List.length_singleton] at hlength
  omega

/-- A stem that goes on from another one with digits has a name in common with it. -/
theorem Continues.exists_make_eq {stem longer : String} (h : Continues stem longer) :
    ∃ m n, make stem m = make longer n := by
  obtain ⟨more, hlonger, hdigits, hhead⟩ := h
  cases more with
  | nil =>
      rw [List.append_nil, String.toList_inj] at hlonger
      exact ⟨0, 0, by rw [hlonger]⟩
  | cons first rest =>
      -- the digits of the longer stem and its own zero are one numeral under the other stem
      have hall : ∀ c ∈ first :: rest ++ numeral base 0, isDigit c := by
        intro c hc
        rcases List.mem_append.1 hc with hmore | hzero
        · exact hdigits c hmore
        · exact isDigit_of_mem_numeral hzero
      obtain ⟨m, hm⟩ := exists_numeral_eq (List.cons_ne_nil _ _) hall hhead
      refine ⟨m, 0, ?_⟩
      rw [← String.toList_inj, toList_make, toList_make, hlonger, hm, List.append_assoc]
      rfl

/-- Two stems have a name in common exactly when one goes on from the other with digits of which
the first is not zero. -/
theorem exists_make_eq_make_iff {stem other : String} :
    (∃ m n, make stem m = make other n) ↔ Continues stem other ∨ Continues other stem := by
  constructor
  · rintro ⟨m, n, h⟩
    rw [← String.toList_inj, toList_make, toList_make] at h
    rcases List.append_eq_append_iff.1 h with ⟨more, hstem, hnumeral⟩ | ⟨more, hstem, hnumeral⟩
    · refine .inl ⟨more, hstem, ?_, head?_ne_zero_of_numeral_eq hnumeral⟩
      intro c hc
      exact isDigit_of_mem_numeral (n := m) (by rw [hnumeral]; exact List.mem_append_left _ hc)
    · refine .inr ⟨more, hstem, ?_, head?_ne_zero_of_numeral_eq hnumeral⟩
      intro c hc
      exact isDigit_of_mem_numeral (n := n) (by rw [hnumeral]; exact List.mem_append_left _ hc)
  · rintro (h | h)
    · exact h.exists_make_eq
    · obtain ⟨m, n, hmake⟩ := h.exists_make_eq
      exact ⟨n, m, hmake.symm⟩

end ClassName

namespace Session

variable {σ τ : Type} [LiveSheet σ]

/-! ## Names that runs give -/

/-- The classes that are given in a run. -/
def names (session : Session σ) (calls : List Call) : List String :=
  (session.classified calls).map Prod.snd

/-- Every class given in a run is the session's stem with a number. -/
theorem exists_eq_make_of_mem_names {settings : Settings} {fresh : Session σ}
    (h : Fresh settings fresh) {calls : List Call} {name : String}
    (hname : name ∈ fresh.names calls) :
    ∃ n, name = ClassName.make settings.stem n := by
  obtain ⟨⟨atom, _⟩, hleaf, rfl⟩ := List.mem_map.1 hname
  have hget := get?_classes_of_mem_classified hleaf
  obtain ⟨-, hmake, -⟩ := (h.remembers_after calls).numbered.atoms atom _ hget
  rw [h.settings_after] at hmake
  exact ⟨_, hmake⟩

/-- A run that compiles one block gives the classes of its leaves. -/
theorem names_compile (session : Session σ) (block : Block) :
    session.names [.compile block] = (compile block session).1 := by
  have hzip : (block.atoms.zip (compile block session).1).map Prod.snd =
      (compile block session).1 :=
    List.map_snd_zip (Nat.le_of_eq (length_compile block session))
  simpa [names, classified, Call.block?] using hzip

/-- A block with more leaves than the given number, no two of them alike. -/
def leaves (n : Nat) : Block :=
  ⟨[("order", .list ((List.range (n + 1)).map fun i => .text (String.ofList (numeral 10 i))))]⟩

/-- The atom of a leaf in such a block. -/
def leafAtom (i : Nat) : Atom :=
  ⟨none, [], "order", String.ofList (numeral 10 i)⟩

theorem requests_leaves (n : Nat) :
    (leaves n).requests Scope.root = (List.range (n + 1)).map fun i => .atom (leafAtom i) := by
  have hpieces : Key.pieces "order" = ["order"] := by decide +kernel
  simp [leaves, Block.requests, Block.requestsOfEntries, Value.isBlank, hpieces, Value.requests,
    List.filterMap_map, Value.scalar?, Scope.atom, Scalar.css, leafAtom,
    Scope.root]

/-- Every number is given to a leaf in some run. -/
theorem exists_make_mem_names {settings : Settings} {fresh : Session σ} (h : Fresh settings fresh)
    (n : Nat) : ∃ calls, ClassName.make settings.stem n ∈ fresh.names calls := by
  have hinj : Function.Injective fun i => Request.atom (leafAtom i) := by
    intro i j hij
    have hnumeral : numeral 10 i = numeral 10 j := by
      simpa [leafAtom, String.ofList_inj] using hij
    exact numeral_inj (by decide) (by decide) hnumeral
  have hnodup : ((List.range (n + 1)).map fun i => Request.atom (leafAtom i)).Nodup :=
    List.Nodup.map hinj List.nodup_range
  have hatom : leafAtom n ∈ (leaves n).atoms := by
    rw [Block.mem_atoms, requests_leaves]
    exact List.mem_map_of_mem (List.mem_range.2 (Nat.lt_succ_self n))
  -- the leaves are all different, so the last one has the number of its place
  have hindex : (((leaves n).requests Scope.root).eraseDups).idxOf (.atom (leafAtom n)) = n := by
    rw [requests_leaves, eraseDups_of_nodup hnodup]
    have hplace := hnodup.idxOf_getElem n (by simp)
    simpa using hplace
  have hasked : .atom (leafAtom n) ∈ [Call.compile (leaves n)].flatMap Call.requests := by
    simpa [Call.requests, Call.block?] using Block.mem_atoms.1 hatom
  have hget := (h.remembers_after [.compile (leaves n)]).get?_classes hasked
  obtain ⟨name, hnames, hname⟩ := compile_eq_map (Extends.refl (compile (leaves n) fresh).2)
  have hsame : name (leafAtom n) = ClassName.make settings.stem n := by
    have hlast := (hname (leafAtom n) hatom).symm.trans hget
    simpa [Call.requests, Call.block?, hindex, h.settings_after] using hlast
  refine ⟨[.compile (leaves n)], ?_⟩
  rw [names_compile, hnames, ← hsame]
  exact List.mem_map_of_mem hatom

/-- No class is ever given in runs of both sessions, whatever the runs are, exactly when neither
stem goes on from the other with digits of which the first is not zero. -/
theorem disjoint_names_iff [LiveSheet τ] {settings other : Settings} {first : Session σ}
    {second : Session τ} (h : Fresh settings first) (hother : Fresh other second) :
    (∀ calls otherCalls, (first.names calls).Disjoint (second.names otherCalls)) ↔
      ¬ ClassName.Continues settings.stem other.stem ∧
        ¬ ClassName.Continues other.stem settings.stem := by
  rw [← not_or, ← ClassName.exists_make_eq_make_iff]
  constructor
  · rintro hdisjoint ⟨m, n, hmake⟩
    obtain ⟨calls, hname⟩ := exists_make_mem_names h m
    obtain ⟨otherCalls, hotherName⟩ := exists_make_mem_names hother n
    exact hdisjoint calls otherCalls hname (hmake ▸ hotherName)
  · intro hnever calls otherCalls name hname hotherName
    obtain ⟨m, hmake⟩ := exists_eq_make_of_mem_names h hname
    obtain ⟨n, hotherMake⟩ := exists_eq_make_of_mem_names hother hotherName
    exact hnever ⟨m, n, hmake.symm.trans hotherMake⟩

/-- A stem with a zero after it is kept apart, for no number but zero begins with that digit. -/
theorem disjoint_names_t_t0 :
    let first : Session BoundedSheet := start { stem := "t" }
    let second : Session BoundedSheet := (attach { stem := "t0" } none (BoundedHost.mk 1)).1
    Fresh { stem := "t" } first ∧ Fresh { stem := "t0" } second ∧
      ∀ calls otherCalls, (first.names calls).Disjoint (second.names otherCalls) := by
  intro first second
  have hfirst : Fresh { stem := "t" } first := .start
  have hsecond : Fresh { stem := "t0" } second := .attach none (BoundedHost.mk 1)
  refine ⟨hfirst, hsecond, (disjoint_names_iff hfirst hsecond).2 ⟨?_, ?_⟩⟩
  · rintro ⟨more, hmore, -, hhead⟩
    have hzero : more = ['0'] := by simpa using hmore.symm
    exact hhead (by rw [hzero]; rfl)
  · rintro ⟨more, hmore, -⟩
    have hlength := congrArg List.length hmore
    simp at hlength

/-- Under the stems `t` and `t1` the 37th leaf of one session and the first leaf of the other have
the same class. -/
theorem not_disjoint_names_t_t1 :
    let first : Session BoundedSheet := start { stem := "t" }
    let second : Session BoundedSheet := start { stem := "t1" }
    let order := Block.ofList [("order", (List.range 37).map fun n => (n : Int))]
    let color := Block.ofList [("color", "gold")]
    Fresh { stem := "t" } first ∧ Fresh { stem := "t1" } second ∧ "t" ≠ "t1" ∧
      "t10" ∈ first.names [.compile order] ∧ "t10" ∈ second.names [.compile color] :=
  ⟨.start, .start, by decide, by decide +kernel, by decide +kernel⟩

end Session

end AtomicRules

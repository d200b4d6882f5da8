import AtomicRules.Proofs.Agreement
import AtomicRules.Proofs.ByteOrder
import AtomicRules.Proofs.Isolation

/-!
# Style sheets and class attributes as texts

A session returns two texts that are put together from others, and both can be taken apart again.
The style sheet has the rules as its lines, in the order of their bytes, and asking for it changes
nothing (`css_lines`). The text of a class attribute has the classes as its words, because neither
a stem without white space nor a number brings in any (`classText_words`).
-/

namespace AtomicRules

/-- Parts with the mark between them, and nowhere in them, are split off again. -/
theorem Text.split_intercalate {mark : Char} {parts : List String} (hne : parts ≠ [])
    (hmark : ∀ part ∈ parts, mark ∉ part.toList) :
    ((String.intercalate (String.singleton mark) parts).split mark).toStringList = parts := by
  have hsplit := String.toList_split_intercalate hmark
  rw [if_neg hne] at hsplit
  rw [Std.Iter.toStringList, Std.Iter.toList_map]
  exact hsplit

/-! ## Rules in order -/

/-- The lines are the rules, each as often as it is there, in the order of their bytes. -/
structure InOrder (rules lines : List String) : Prop where
  perm : lines.Perm rules
  ordered : lines.Pairwise fun line later => Text.bytes line ≤ Text.bytes later

/-- There is only one way to put rules in order. -/
theorem InOrder.unique {rules lines others : List String} (h : InOrder rules lines)
    (hothers : InOrder rules others) : lines = others := by
  refine List.Perm.eq_of_pairwise ?_ h.ordered hothers.ordered (h.perm.trans hothers.perm.symm)
  intro line other _ _ hle hge
  rw [Text.bytes_le_iff] at hle hge
  exact String.le_antisymm hle hge

/-- Sorted rules are in order. -/
theorem inOrder_mergeSort (rules : List String) :
    InOrder rules (rules.mergeSort fun rule other => decide (rule ≤ other)) := by
  refine ⟨List.mergeSort_perm _ _, ?_⟩
  have hsorted : (rules.mergeSort fun rule other => decide (rule ≤ other)).Pairwise
      fun rule other => decide (rule ≤ other) = true := by
    apply List.pairwise_mergeSort
    · intro rule other last hrule hother
      exact decide_eq_true (String.le_trans (of_decide_eq_true hrule) (of_decide_eq_true hother))
    · intro rule other
      simpa using String.le_total rule other
  apply hsorted.imp
  intro rule other hle
  rw [Text.bytes_le_iff]
  exact of_decide_eq_true hle

/-- The call asks for the style sheet. -/
def Call.isCss : Call → Bool
  | .css => true
  | _ => false

namespace Session

variable {σ τ : Type}

/-- The lines of a style sheet are the rules in order. -/
theorem exists_inOrder_css (session : Session σ) :
    ∃ lines, InOrder session.rules lines ∧ session.css = String.intercalate "\n" lines :=
  ⟨_, inOrder_mergeSort session.rules, rfl⟩

/-- Sessions with the same rules in another order have the same style sheet. -/
theorem css_eq_of_perm {session : Session σ} {other : Session τ}
    (h : other.rules.Perm session.rules) : other.css = session.css := by
  obtain ⟨lines, horder, hcss⟩ := exists_inOrder_css session
  obtain ⟨others, hothers, hother⟩ := exists_inOrder_css other
  have hsame : others = lines := InOrder.unique ⟨hothers.perm.trans h, hothers.ordered⟩ horder
  rw [hcss, hother, hsame]

variable [LiveSheet σ]

/-- A call for the style sheet leaves the session as it is. -/
theorem call_of_isCss {next : Call} (h : next.isCss) (session : Session σ) :
    (call next session).2 = session := by
  cases next with
  | css => rfl
  | compile | classText | rules => contradiction

/-- A run without its calls for the style sheet leaves the same session. -/
theorem after_filter_isCss (calls : List Call) (session : Session σ) :
    session.after (calls.filter (!·.isCss)) = session.after calls := by
  induction calls generalizing session with
  | nil => rfl
  | cons next rest ih =>
      cases hcss : next.isCss with
      | true =>
          rw [List.filter_cons_of_neg (by simp [hcss]), ih, after, call_of_isCss hcss]
      | false =>
          rw [List.filter_cons_of_pos (by simp [hcss]), after, after, ih]

/-- The other calls of a run show the same without its calls for the style sheet. -/
theorem zip_observed_filter_isCss (calls : List Call) (session : Session σ) :
    (calls.zip (session.observed calls)).filter (!·.1.isCss) =
      (calls.filter (!·.isCss)).zip (session.observed (calls.filter (!·.isCss))) := by
  induction calls generalizing session with
  | nil => rfl
  | cons next rest ih =>
      rw [observed, List.zip_cons_cons]
      cases hcss : next.isCss with
      | true =>
          rw [List.filter_cons_of_neg (by simp [hcss]), List.filter_cons_of_neg (by simp [hcss]),
            ih, call_of_isCss hcss]
      | false =>
          rw [List.filter_cons_of_pos (by simp [hcss]), List.filter_cons_of_pos (by simp [hcss]),
            ih, observed, List.zip_cons_cons]

/-- The style sheet of any session is made of lines. They are the rules, each as often as it was
made, in the order of their bytes, which is that of their code points, and no other list is. So two
sessions with the same rules have the same style sheet, in whatever order the rules were made.
Rules without line breaks can be read off it. A run shows and leaves the same with or without its
calls for the style sheet. -/
theorem css_lines (session : Session σ) :
    (∃ lines, (∀ list, InOrder session.rules list ↔ list = lines) ∧
        session.css = String.intercalate "\n" lines ∧
        (session.rules ≠ [] → (∀ rule ∈ session.rules, '\n' ∉ rule.toList) →
          (session.css.split '\n').toStringList = lines)) ∧
      (∀ text other : String, Text.bytes text < Text.bytes other ↔ text.toList < other.toList) ∧
      (∀ {τ : Type} (other : Session τ), other.rules.Perm session.rules →
        other.css = session.css) ∧
      ∀ calls : List Call,
        let others := calls.filter (!·.isCss)
        session.after calls = session.after others ∧
          (calls.zip (session.observed calls)).filter (!·.1.isCss) =
            others.zip (session.observed others) := by
  refine ⟨?_, fun _ _ => Text.bytes_lt_iff, fun _ => css_eq_of_perm, fun calls => ?_⟩
  · obtain ⟨lines, horder, hcss⟩ := exists_inOrder_css session
    refine ⟨lines, fun list => ⟨fun hlist => hlist.unique horder, fun hlist => hlist ▸ horder⟩,
      hcss, ?_⟩
    intro hne hbreak
    have hlines : lines ≠ [] := by
      rintro rfl
      exact hne horder.perm.nil_eq.symm
    rw [hcss]
    exact Text.split_intercalate hlines fun line hline =>
      hbreak line (horder.perm.mem_iff.1 hline)
  · exact ⟨(after_filter_isCss calls session).symm, zip_observed_filter_isCss calls session⟩

/-- A rule under a media query is made before a rule of its own and stands behind it. Made the other
way round, the rules are the same style sheet. Two calls for it go unnoticed. -/
theorem css_lines_media :
    let fresh : Session BoundedSheet := start { stem := "t" }
    let print := Block.ofList [("color", "black")]
    let block : Block := (Block.empty.insert "@media print" print).insert "color" "gold"
    let session := fresh.after [.compile block]
    let other : Session BoundedSheet := { ledger := { rules := session.rules.reverse } }
    session.rules = ["@media print\x7b.t0\x7bcolor:black;\x7d\x7d", ".t1\x7bcolor:gold;\x7d"] ∧
      session.css = ".t1\x7bcolor:gold;\x7d\n@media print\x7b.t0\x7bcolor:black;\x7d\x7d" ∧
      (session.css.split '\n').toStringList =
        [".t1\x7bcolor:gold;\x7d", "@media print\x7b.t0\x7bcolor:black;\x7d\x7d"] ∧
      other.css = session.css ∧
      session.after [.css, .compile print, .css] = session.after [.compile print] := by
  intro fresh print block session other
  have hrules : session.rules =
      ["@media print\x7b.t0\x7bcolor:black;\x7d\x7d", ".t1\x7bcolor:gold;\x7d"] := by
    decide +kernel
  clear_value session
  obtain ⟨⟨lines, honly, hcss, hsplit⟩, -, hperm, hcalls⟩ := css_lines session
  have hlines :
      [".t1\x7bcolor:gold;\x7d", "@media print\x7b.t0\x7bcolor:black;\x7d\x7d"] = lines := by
    rw [← honly, hrules]
    exact ⟨List.Perm.swap _ _ _, by decide +kernel⟩
  refine ⟨hrules, ?_, ?_, hperm other (List.reverse_perm _), (hcalls _).1⟩
  · rw [hcss, ← hlines]
    decide +kernel
  · rw [hsplit (by rw [hrules]; decide) (by rw [hrules]; decide +kernel), ← hlines]

end Session

/-! ## Classes as words -/

/-- Parts that are put together begin with the first of them. -/
theorem Text.exists_intercalate_cons (mark first : String) (rest : List String) :
    ∃ more, String.intercalate mark (first :: rest) = first ++ more := by
  by_cases hrest : rest = []
  · exact ⟨"", by simp [hrest]⟩
  · exact ⟨mark ++ String.intercalate mark rest, by
      rw [String.intercalate_cons_of_ne_nil hrest, String.append_assoc]⟩

/-- Parts that are put together end in the last of them. -/
theorem Text.exists_intercalate_concat (mark : String) (front : List String) (last : String) :
    ∃ before, String.intercalate mark (front ++ [last]) = before ++ last := by
  by_cases hfront : front = []
  · exact ⟨"", by simp [hfront]⟩
  · exact ⟨String.intercalate mark front ++ mark, by
      rw [String.intercalate_append_of_ne_nil hfront (List.cons_ne_nil _ _),
        String.intercalate_singleton]⟩

/-- The text is not empty and has no white space in it. -/
structure Text.IsWord (text : String) : Prop where
  toList_ne_nil : text.toList ≠ []
  isWhiteSpace_eq_false : ∀ c ∈ text.toList, isWhiteSpace c = false

/-- There is nothing to trim around words. -/
theorem Text.trimString_intercalate {words : List String} (h : ∀ word ∈ words, IsWord word)
    (mark : String) :
    trimString (String.intercalate mark words) = String.intercalate mark words := by
  rw [trimString, trim_eq_self, String.ofList_toList]
  · intro c hc
    cases words with
    | nil => simp at hc
    | cons first rest =>
        have hword := h first List.mem_cons_self
        obtain ⟨more, hmore⟩ := exists_intercalate_cons mark first rest
        rw [hmore, String.toList_append, List.head?_append_of_ne_nil _ hword.toList_ne_nil] at hc
        exact hword.isWhiteSpace_eq_false c (List.mem_of_mem_head? hc)
  · intro c hc
    rcases words.eq_nil_or_concat with rfl | ⟨front, last, rfl⟩
    · simp at hc
    · rw [List.concat_eq_append] at h hc
      have hword := h last (by simp)
      obtain ⟨before, hbefore⟩ := exists_intercalate_concat mark front last
      rw [hbefore, String.toList_append, List.getLast?_append_of_ne_nil _ hword.toList_ne_nil] at hc
      exact hword.isWhiteSpace_eq_false c (List.mem_of_mem_getLast? hc)

namespace ClassName

/-- No digit is white space. -/
theorem isWhiteSpace_of_isDigit {c : Char} (h : isDigit c) : Text.isWhiteSpace c = false := by
  obtain ⟨hlt, hc⟩ := digitChar_digitValue h
  rw [← hc]
  exact (by decide : ∀ digit < base,
    Text.isWhiteSpace (Text.Radix.digitChar digit) = false) _ hlt

/-- Under a stem without white space every class name is a word. -/
theorem isWord_make {stem : String} (h : ∀ c ∈ stem.toList, Text.isWhiteSpace c = false) (n : Nat) :
    Text.IsWord (make stem n) := by
  constructor
  · rw [toList_make]
    exact List.append_ne_nil_of_right_ne_nil _ (Text.Radix.numeral_ne_nil (by decide) n)
  · intro c hc
    rw [toList_make, List.mem_append] at hc
    rcases hc with hstem | hnumeral
    · exact h c hstem
    · exact isWhiteSpace_of_isDigit (isDigit_of_mem_numeral hnumeral)

end ClassName

namespace Session

variable {σ : Type} [LiveSheet σ]

/-- Whatever run comes before, the classes of a block are the session's stem with numbers. -/
theorem exists_eq_make_of_mem_compile {settings : Settings} {fresh : Session σ}
    (h : Fresh settings fresh) (calls : List Call) {block : Block} {name : String}
    (hname : name ∈ (compile block (fresh.after calls)).1) :
    ∃ n, name = ClassName.make settings.stem n := by
  obtain ⟨given, hnames, hgiven⟩ :=
    compile_eq_map (Extends.refl (compile block (fresh.after calls)).2)
  rw [hnames] at hname
  obtain ⟨atom, hatom, rfl⟩ := List.mem_map.1 hname
  have hremembers := (h.remembers_after calls).answerAll (block.requests Scope.root)
  have hclass := hremembers.get?_classes (List.mem_append_right _ (Block.mem_atoms.1 hatom))
  rw [settings_answerAll, h.settings_after, ← compile_eq_answerAll, hgiven atom hatom] at hclass
  exact ⟨_, Option.some.inj hclass⟩

/-- Under a stem without white space, the text of a class attribute has the same classes as the
list, whatever run comes before, and both leave the same session. The text is empty exactly when the
block has no leaves, and otherwise its words are the classes, in order and with repetitions. -/
theorem classText_words {settings : Settings} {fresh : Session σ} (h : Fresh settings fresh)
    (hstem : ∀ c ∈ settings.stem.toList, Text.isWhiteSpace c = false) (calls : List Call)
    (block : Block) :
    let session := fresh.after calls
    let names := (compile block session).1
    let text := (classText block session).1
    (classText block session).2 = (compile block session).2 ∧
      (text = "" ↔ names = []) ∧
      (names ≠ [] → (text.split ' ').toStringList = names) := by
  intro session names text
  have hwords : ∀ name ∈ names, Text.IsWord name := by
    intro name hname
    obtain ⟨n, rfl⟩ := exists_eq_make_of_mem_compile h calls hname
    exact ClassName.isWord_make hstem n
  have htext : text = String.intercalate " " names := Text.trimString_intercalate hwords " "
  refine ⟨rfl, ?_, ?_⟩
  · rw [htext]
    cases hnames : names with
    | nil => simp
    | cons first rest =>
        obtain ⟨more, hmore⟩ := Text.exists_intercalate_cons " " first rest
        have hfirst := (hwords first (hnames ▸ List.mem_cons_self)).toList_ne_nil
        rw [hmore, ← String.toList_inj, String.toList_append]
        simp [hfirst]
  · intro hne
    rw [htext]
    apply Text.split_intercalate hne
    intro name hname hblank
    have hwhite := (hwords name hname).isWhiteSpace_eq_false ' ' hblank
    exact absurd hwhite (by decide)

/-- A property that is listed twice has its class twice in the text. Its number counts on from the
run before. -/
theorem classText_words_repeated :
    let fresh : Session BoundedSheet := (attach { stem := "x" } none (BoundedHost.mk 1)).1
    let calls := [.compile (Block.ofList [("color", "gold")]), .css]
    let block := Block.ofList [("top,left,top", "0")]
    let session := fresh.after calls
    Fresh { stem := "x" } fresh ∧
      (∀ c ∈ "x".toList, Text.isWhiteSpace c = false) ∧
      (classText block session).1 = "x1 x2 x1" ∧
      ((classText block session).1.split ' ').toStringList = ["x1", "x2", "x1"] ∧
      (classText block session).2 = (compile block session).2 := by
  intro fresh calls block session
  have hfresh : Fresh { stem := "x" } fresh := .attach none (BoundedHost.mk 1)
  have hletter : Text.isWhiteSpace 'x' = false := by decide
  have hstem : ∀ c ∈ "x".toList, Text.isWhiteSpace c = false := by simpa using hletter
  have hnames : (compile block session).1 = ["x1", "x2", "x1"] := by decide +kernel
  have htext : (classText block session).1 = "x1 x2 x1" := by decide +kernel
  obtain ⟨hstate, -, hsplit⟩ := classText_words hfresh hstem calls block
  rw [hnames] at hsplit
  exact ⟨hfresh, hstem, htext, hsplit (List.cons_ne_nil _ _), hstate⟩

end Session

end AtomicRules

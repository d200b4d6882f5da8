import AtomicRules.Proofs.Renumbering
import Mathlib.Data.List.Infix

/-!
# Reading rules

The rule of an atom is put together without escapes, and still its parts can be read off it. The
first brace ends the media query, or the selector where there is none, and the first colon of the
declaration ends the property. Only the value may hold anything, for what closes the rule is known.
`read?_eq_some_iff` says which texts are read, and `rule_read_of_plain` that they are the rules
of a run.
-/

namespace AtomicRules

/-! ## Cutting texts -/

/-- The text before the first place of a character, and the text after it. -/
def cut? (mark : Char) : List Char → Option (List Char × List Char)
  | [] => none
  | c :: rest =>
      if c = mark then some ([], rest)
      else (cut? mark rest).map fun (front, back) => (c :: front, back)

/-- A text is cut at the first place of the character and nowhere else. -/
theorem cut?_eq_some_iff {mark : Char} {text front back : List Char} :
    cut? mark text = some (front, back) ↔ text = front ++ mark :: back ∧ mark ∉ front := by
  induction text generalizing front with
  | nil => simp [cut?]
  | cons c rest ih =>
      rw [cut?]
      by_cases hc : c = mark
      · subst hc
        cases front with
        | nil => simp
        | cons d front =>
            simp only [List.cons_append, List.cons.injEq, List.mem_cons, not_or]
            constructor
            · intro hcut
              simp at hcut
            · rintro ⟨⟨hd, -⟩, hne, -⟩
              exact absurd hd hne
      · rw [if_neg hc, Option.map_eq_some_iff]
        constructor
        · rintro ⟨⟨first, second⟩, hcut, hpair⟩
          obtain ⟨rfl, rfl⟩ := Prod.mk.inj hpair
          obtain ⟨rfl, hfirst⟩ := ih.1 hcut
          exact ⟨rfl, by simp [hfirst, Ne.symm hc]⟩
        · rintro ⟨htext, hfront⟩
          cases front with
          | nil => exact absurd (List.cons.inj htext).1 hc
          | cons d front =>
              obtain ⟨rfl, hrest⟩ := List.cons.inj htext
              exact ⟨(front, back), ih.2 ⟨hrest, fun hmem => hfront (List.mem_cons_of_mem _ hmem)⟩,
                rfl⟩

/-- What stands before a character is a beginning of what stands before its first place. -/
theorem prefix_of_append_eq {mark : Char} {front back text rest : List Char} (hmark : mark ∉ front)
    (h : text ++ mark :: rest = front ++ back) : front <+: text := by
  rcases List.append_eq_append_iff.1 h with ⟨more, hfront, hback⟩ | ⟨more, htext, -⟩
  · cases more with
    | nil => exact ⟨[], by rw [hfront, List.append_nil, List.append_nil]⟩
    | cons c more =>
        obtain ⟨rfl, -⟩ := List.cons.inj hback
        exact absurd (by simp [hfront]) hmark
  · exact ⟨more, htext.symm⟩

namespace Rule

/-! ## What is read -/

/-- What the rule of an atom says: the media query, the selector without its point, the property and
the value. -/
structure Reading where
  media? : Option String
  selector : String
  property : String
  value : String
deriving DecidableEq

/-- The rule that says so. -/
def Reading.text (reading : Reading) : String :=
  wrap reading.media?
    (labelled ("." ++ reading.selector) (declaration reading.property reading.value))

/-- The ends of the parts can be told: media queries begin as such, no brace is in the media query
or the selector, and no colon in the property. -/
structure Reading.Legible (reading : Reading) : Prop where
  media : ∀ query ∈ reading.media?, "@media".toList <+: query.toList ∧ '\x7b' ∉ query.toList
  selector : '\x7b' ∉ reading.selector.toList
  property : ':' ∉ reading.property.toList

/-- Reads the point, the selector and the declaration of a rule. What closes the rule is given. -/
def readStyle? (media? : Option String) (ending : List Char) (text : List Char) :
    Option Reading := do
  let '.' :: text := text | none
  let (selector, body) ← cut? '\x7b' text
  let (property, rest) ← cut? ':' body
  let value ← List.dropSuffix? rest (';' :: '\x7d' :: ending)
  return ⟨media?, .ofList selector, .ofList property, .ofList value⟩

/-- Reads the rule of an atom. -/
def read? (text : String) : Option Reading := do
  if "@media".toList.isPrefixOf text.toList then
    let (query, body) ← cut? '\x7b' text.toList
    readStyle? (some (.ofList query)) ['\x7d'] body
  else
    readStyle? none [] text.toList

/-- What is read after a point is a selector, a declaration and what closes the rule. -/
theorem readStyle?_eq_some_iff {media? : Option String} {ending text : List Char}
    {reading : Reading} : readStyle? media? ending text = some reading ↔
      reading.media? = media? ∧ '\x7b' ∉ reading.selector.toList ∧ ':' ∉ reading.property.toList ∧
        text = (labelled ("." ++ reading.selector)
          (declaration reading.property reading.value)).toList ++ ending := by
  obtain ⟨query?, selector, property, value⟩ := reading
  constructor
  · intro h
    unfold readStyle? at h
    split at h
    · next text =>
        simp only [Option.bind_eq_bind, Option.bind_eq_some_iff, Option.pure_def] at h
        obtain ⟨⟨front, body⟩, hselector, ⟨name, rest⟩, hproperty, written, hvalue, hreading⟩ := h
        cases hreading
        obtain ⟨rfl, hbrace⟩ := cut?_eq_some_iff.1 hselector
        obtain ⟨rfl, hcolon⟩ := cut?_eq_some_iff.1 hproperty
        obtain ⟨closing, rfl, hclosing⟩ := List.dropSuffix?_eq_some_iff.1 hvalue
        rw [eq_of_beq hclosing]
        simp [hbrace, hcolon]
    · contradiction
  · rintro ⟨rfl, hbrace, hcolon, rfl⟩
    have hselector : cut? '\x7b' (selector.toList ++ '\x7b' :: (property.toList ++ ':' ::
        (value.toList ++ (';' :: '\x7d' :: ending)))) = some (selector.toList, _) :=
      cut?_eq_some_iff.2 ⟨rfl, hbrace⟩
    have hproperty : cut? ':' (property.toList ++ ':' ::
        (value.toList ++ (';' :: '\x7d' :: ending))) = some (property.toList, _) :=
      cut?_eq_some_iff.2 ⟨rfl, hcolon⟩
    have hvalue : List.dropSuffix? (value.toList ++ (';' :: '\x7d' :: ending))
        (';' :: '\x7d' :: ending) = some value.toList :=
      List.dropSuffix?_eq_some_iff.2 ⟨_, rfl, beq_self_eq_true _⟩
    simp [readStyle?, hselector, hproperty, hvalue]

/-- The rule of a reading without media query. -/
theorem Reading.toList_text_of_none {reading : Reading} (h : reading.media? = none) :
    reading.text.toList = (labelled ("." ++ reading.selector)
      (declaration reading.property reading.value)).toList := by
  rw [text, h, wrap_none]

/-- The rule of a reading with a media query. -/
theorem Reading.toList_text_of_some {reading : Reading} {query : String}
    (h : reading.media? = some query) :
    reading.text.toList = query.toList ++ '\x7b' :: ((labelled ("." ++ reading.selector)
      (declaration reading.property reading.value)).toList ++ ['\x7d']) := by
  rw [text, h, wrap_some, toList_labelled]

/-- What is read is legible, and the text is its rule. -/
theorem read?_sound {text : String} {reading : Reading} (h : read? text = some reading) :
    reading.Legible ∧ reading.text = text := by
  unfold read? at h
  split at h
  · next hprefix =>
      simp only [Option.bind_eq_bind, Option.bind_eq_some_iff] at h
      obtain ⟨⟨query, body⟩, hquery, hstyle⟩ := h
      obtain ⟨htext, hbrace⟩ := cut?_eq_some_iff.1 hquery
      obtain ⟨hmedia, hselector, hproperty, rfl⟩ := readStyle?_eq_some_iff.1 hstyle
      -- the letters of `@media` stand before the brace that ends the query
      obtain ⟨rest, hrest⟩ := List.isPrefixOf_iff_prefix.1 hprefix
      have hbegin : "@media".toList <+: query :=
        prefix_of_append_eq (by decide) (htext.symm.trans hrest.symm)
      refine ⟨⟨?_, hselector, hproperty⟩, ?_⟩
      · rintro _ hother
        rw [hmedia] at hother
        cases hother
        have hlist : (String.ofList query).toList = query := String.toList_ofList
        rw [hlist]
        exact ⟨hbegin, hbrace⟩
      · rw [← String.toList_inj, reading.toList_text_of_some hmedia, htext, String.toList_ofList]
  · obtain ⟨hmedia, hselector, hproperty, htext⟩ := readStyle?_eq_some_iff.1 h
    refine ⟨⟨?_, hselector, hproperty⟩, ?_⟩
    · rintro _ hother
      rw [hmedia] at hother
      cases hother
    · rw [← String.toList_inj, reading.toList_text_of_none hmedia, htext, List.append_nil]

/-- The rule of a legible reading is read as it. -/
theorem read?_complete {reading : Reading} (h : reading.Legible) :
    read? reading.text = some reading := by
  unfold read?
  cases hcase : reading.media? with
  | none =>
      have htext := reading.toList_text_of_none hcase
      have hpoint : ¬ "@media".toList.isPrefixOf reading.text.toList := by
        rw [htext]
        simp
      rw [if_neg hpoint, readStyle?_eq_some_iff]
      exact ⟨hcase, h.selector, h.property, by rw [htext, List.append_nil]⟩
  | some query =>
      have htext := reading.toList_text_of_some hcase
      obtain ⟨hbegin, hbrace⟩ := h.media query hcase
      have hprefix : "@media".toList.isPrefixOf reading.text.toList := by
        rw [List.isPrefixOf_iff_prefix, htext]
        exact hbegin.trans (List.prefix_append _ _)
      have hquery : cut? '\x7b' reading.text.toList = some (query.toList, _) :=
        cut?_eq_some_iff.2 ⟨htext, hbrace⟩
      rw [if_pos hprefix, hquery, Option.bind_eq_bind, Option.bind_some]
      show readStyle? (some (String.ofList query.toList)) _ _ = _
      rw [String.ofList_toList, readStyle?_eq_some_iff]
      exact ⟨hcase, h.selector, h.property, rfl⟩

/-- Reading accepts the rules whose parts can be told, and reads what they say. -/
theorem read?_eq_some_iff {text : String} {reading : Reading} :
    read? text = some reading ↔ reading.Legible ∧ reading.text = text :=
  ⟨read?_sound, fun h => h.2 ▸ read?_complete h.1⟩

end Rule

/-! ## Rules in a run -/

namespace Atom

/-- What the rule of an atom says under a class name. -/
def reading (atom : Atom) (name : String) : Rule.Reading where
  media? := atom.media?
  selector := name ++ String.join atom.selectors
  property := atom.property
  value := atom.value

/-- The rule of an atom says what the atom says. -/
theorem text_reading (atom : Atom) (name : String) : (atom.reading name).text = atom.rule name := by
  rw [rule, selector, Rule.Reading.text, String.append_assoc]
  rfl

/-- No brace is in the media query, the class name or the selector pieces, and no colon in the
property. The value may be any text. -/
structure Plain (atom : Atom) (name : String) : Prop where
  media : ∀ query ∈ atom.media?, '\x7b' ∉ query.toList
  name : '\x7b' ∉ name.toList
  selectors : ∀ piece ∈ atom.selectors, '\x7b' ∉ piece.toList
  property : ':' ∉ atom.property.toList

/-- Such an atom is legible if its media query begins as one. -/
theorem Plain.legible {atom : Atom} {name : String} (h : atom.Plain name)
    (hproper : (Request.atom atom).Proper) : (atom.reading name).Legible := by
  refine ⟨fun query hquery => ⟨hproper query hquery, h.media query hquery⟩, ?_, h.property⟩
  intro hbrace
  rw [reading, String.toList_append, String.toList_join, List.mem_append,
    List.mem_flatMap] at hbrace
  rcases hbrace with hname | ⟨piece, hpiece, hbrace⟩
  · exact h.name hname
  · exact h.selectors piece hpiece hbrace

end Atom

namespace Session

variable {σ τ : Type} [LiveSheet σ]

/-- Rules are made for proper requests only. -/
theorem proper_of_madeFor {settings : Settings} {fresh : Session σ} (h : Fresh settings fresh)
    {calls : List Call} {stem : String} {request : Request} {index : Nat}
    (hmade : (fresh.after calls).MadeFor stem request index) : request.Proper := by
  have hasked : request ∈ calls.flatMap Call.requests := by
    rw [← (h.remembers_after calls).isSome_known?, hmade.known]
    rfl
  exact proper_of_mem_requests hasked

/-- The rule that a run made for a plain atom is read as what the atom says. -/
theorem read?_of_madeFor {settings : Settings} {fresh : Session σ} (h : Fresh settings fresh)
    {calls : List Call} {atom : Atom} {index : Nat}
    (hmade : (fresh.after calls).MadeFor settings.stem (.atom atom) index)
    (hplain : atom.Plain (ClassName.make settings.stem index)) {text : String}
    (htext : (fresh.after calls).rules[index]? = some text) :
    Rule.read? text = some (atom.reading (ClassName.make settings.stem index)) := by
  obtain rfl := Option.some.inj (hmade.rule.symm.trans htext)
  rw [Rule.read?_eq_some_iff]
  exact ⟨hplain.legible (proper_of_madeFor h hmade), atom.text_reading _⟩

/-- The rule that a run made for an atom is read as the atom, if neither its media query, its class
and its selector pieces hold a brace nor its property a colon. So two such rules with the same text
say the same, also if they come from runs of different sessions. -/
theorem rule_read_of_plain [LiveSheet τ] {settings otherSettings : Settings} {fresh : Session σ}
    {otherFresh : Session τ} (h : Fresh settings fresh) (hother : Fresh otherSettings otherFresh)
    (calls otherCalls : List Call) {atom : Atom} {index : Nat}
    (hmade : (fresh.after calls).MadeFor settings.stem (.atom atom) index)
    (hplain : atom.Plain (ClassName.make settings.stem index)) :
    ∃ text, (fresh.after calls).rules[index]? = some text ∧
      Rule.read? text = some (atom.reading (ClassName.make settings.stem index)) ∧
      ∀ other place, (otherFresh.after otherCalls).MadeFor otherSettings.stem (.atom other) place →
        other.Plain (ClassName.make otherSettings.stem place) →
        (otherFresh.after otherCalls).rules[place]? = some text →
        other.reading (ClassName.make otherSettings.stem place) =
          atom.reading (ClassName.make settings.stem index) := by
  have hread := read?_of_madeFor h hmade hplain hmade.rule
  refine ⟨_, hmade.rule, hread, ?_⟩
  intro other place hotherMade hotherPlain htext
  exact Option.some.inj ((read?_of_madeFor hother hotherMade hotherPlain htext).symm.trans hread)

/-- A value that looks like the end of a rule and the beginning of another one is read as it is,
and the same rule in a session of another kind says the same. -/
theorem rule_read_of_plain_bounded :
    let fresh : Session BoundedSheet := (attach { stem := "x" } none (BoundedHost.mk 1)).1
    let other : Session BoundedSheet := start { stem := "x", debug := true }
    let content := Block.ofList [("content", "a:b;\x7d\x7d.x0\x7bc:d")]
    let block := Block.ofList [("@media print", Block.ofList [("&:hover,b", content)])]
    let atom : Atom := ⟨some "@media print", [" b"], "content", "a:b;\x7d\x7d.x0\x7bc:d"⟩
    let text := "@media print\x7b.x1 b\x7bcontent:a:b;\x7d\x7d.x0\x7bc:d;\x7d\x7d"
    Fresh { stem := "x" } fresh ∧ Fresh { stem := "x", debug := true } other ∧
      (fresh.after [.compile block]).MadeFor "x" (.atom atom) 1 ∧ atom.Plain "x1" ∧
      (fresh.after [.compile block]).rules[1]? = some text ∧
      Rule.read? text =
        some ⟨some "@media print", "x1 b", "content", "a:b;\x7d\x7d.x0\x7bc:d"⟩ ∧
      ∀ wanted place, (other.after [.compile block]).MadeFor "x" (.atom wanted) place →
        wanted.Plain (ClassName.make "x" place) →
        (other.after [.compile block]).rules[place]? = some text →
        wanted.reading (ClassName.make "x" place) = atom.reading "x1" := by
  intro fresh other content block atom text
  have hfresh : Fresh { stem := "x" } fresh := .attach none (BoundedHost.mk 1)
  have hother : Fresh { stem := "x", debug := true } other := .start
  have hname : ClassName.make "x" 1 = "x1" := by decide +kernel
  have hmade : (fresh.after [.compile block]).MadeFor "x" (.atom atom) 1 :=
    ⟨by decide +kernel, by decide +kernel⟩
  have hplain : atom.Plain "x1" :=
    ⟨by decide +kernel, by decide +kernel, by decide +kernel, by decide +kernel⟩
  have hrule : (fresh.after [.compile block]).rules[1]? = some text := by decide +kernel
  obtain ⟨_, htext, hread, hsame⟩ := rule_read_of_plain hfresh hother [.compile block]
    [.compile block] hmade (hname ▸ hplain)
  obtain rfl := Option.some.inj (hrule.symm.trans htext)
  rw [hname] at hread hsame
  exact ⟨hfresh, hother, hmade, hplain, hrule, hread, hsame⟩

end Session

end AtomicRules

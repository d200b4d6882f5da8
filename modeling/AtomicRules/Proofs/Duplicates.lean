import AtomicRules.Proofs.Isolation

/-!
# Rules with the same text

Atoms are told apart part by part, but a rule is one text in which nothing is escaped. So two rules
at different places can still read the same: the selector text of the earlier atom may begin with
the digits that its number lacks, or the media query of one atom may go on into the rule that stands
in that of the other. These are the only ways (`rules_eq_iff`). Where no two leaves differ like
this, no rule comes twice (`nodup_rules_after`).
-/

namespace AtomicRules

open Text.Radix

/-! ## Requests that a block makes -/

namespace Key

/-- The text of an animation's key begins with `@keyframes`. -/
theorem prefix_of_kind_keyframes {key : String} (h : kind key = .keyframes) :
    "@keyframes".toList <+: key.toList := by
  unfold kind at h
  split at h
  · next hprefix => exact List.isPrefixOf_iff_prefix.1 hprefix
  · split at h <;> contradiction

/-- A media query begins with `@media`. -/
theorem prefix_of_kind_media {key : String} (h : kind key = .media) :
    "@media".toList <+: key.toList := by
  unfold kind at h
  split at h
  · contradiction
  · split at h
    · next hprefix => exact List.isPrefixOf_iff_prefix.1 hprefix
    · contradiction

end Key

/-- A request that comes from a block: media queries and animations begin as their keys do. -/
def Request.Proper : Request → Prop
  | .atom declaration => ∀ query ∈ declaration.media?, "@media".toList <+: query.toList
  | .keyframes rule => "@keyframes".toList <+: rule.toList

/-- Entries ask for what their values ask for under the pieces of their keys. -/
theorem Block.mem_requestsOfEntries {scope : Scope} {entries : List (String × Value)}
    {request : Request} : request ∈ Block.requestsOfEntries scope entries ↔
      ∃ entry ∈ entries, entry.2.isBlank = false ∧
        ∃ piece ∈ Key.pieces entry.1, request ∈ entry.2.requests scope piece := by
  induction entries with
  | nil => simp
  | cons entry rest ih =>
      obtain ⟨key, value⟩ := entry
      rw [requestsOfEntries, List.mem_append, ih, List.mem_flatMap, List.exists_mem_cons_iff]
      cases value.isBlank <;> simp

/-- In a scope whose media query begins as one, a value makes proper requests only. -/
theorem Value.proper_of_mem_requests {value : Value} {scope : Scope} {piece : String}
    {request : Request} (hscope : ∀ query ∈ scope.media?, "@media".toList <+: query.toList)
    (h : request ∈ value.requests scope piece) : request.Proper := by
  induction value using Value.induction generalizing scope piece with
  | null => contradiction
  | bool => contradiction
  | text =>
      rw [requests, List.mem_singleton] at h
      rw [h]
      exact hscope
  | number =>
      rw [requests, List.mem_singleton] at h
      rw [h]
      exact hscope
  | list items =>
      rw [requests, List.mem_filterMap] at h
      obtain ⟨item, -, hitem⟩ := h
      obtain ⟨leaf, -, rfl⟩ := Option.map_eq_some_iff.1 hitem
      exact hscope
  | block entries ih =>
      rw [requests] at h
      split at h
      · next hkind =>
          rw [List.mem_singleton.1 h, Request.Proper, Block.keyframes, Rule.toList_labelled]
          exact (Key.prefix_of_kind_keyframes hkind).trans (List.prefix_append _ _)
      · next hkind =>
          obtain ⟨entry, hentry, -, _, -, hrequest⟩ := Block.mem_requestsOfEntries.1 h
          apply ih entry hentry ?_ hrequest
          intro query hquery
          cases hquery
          exact Key.prefix_of_kind_media hkind
      · obtain ⟨entry, hentry, -, _, -, hrequest⟩ := Block.mem_requestsOfEntries.1 h
        refine ih entry hentry ?_ hrequest
        exact hscope

/-- A block makes proper requests only. -/
theorem Block.proper_of_mem_requests {block : Block} {request : Request}
    (h : request ∈ block.requests Scope.root) : request.Proper := by
  obtain ⟨entries⟩ := block
  obtain ⟨entry, -, -, _, -, hrequest⟩ := Block.mem_requestsOfEntries.1 h
  refine Value.proper_of_mem_requests ?_ hrequest
  intro query hquery
  cases hquery

/-! ## Numbers in front of other text -/

/-- More digits do not make a number smaller. -/
theorem Text.Radix.value_le_value_append {base : Nat} (hbase : 1 < base) (high low : List Nat) :
    value base high ≤ value base (high ++ low) := by
  induction low using List.reverseRecOn with
  | nil => simp
  | append_singleton low digit ih =>
      rw [← List.append_assoc, value_append_singleton]
      have hgrow := Nat.le_mul_of_pos_left (value base (high ++ low)) (Nat.zero_lt_of_lt hbase)
      omega

namespace ClassName

/-- If texts agree that begin with a smaller and a larger number, the other text after the smaller
number begins with the digits that it lacks. -/
theorem exists_digits_of_append_eq {m n : Nat} (hlt : m < n) {text other : List Char}
    (h : numeral base m ++ text = numeral base n ++ other) :
    ∃ digits ≠ [], numeral base n = numeral base m ++ digits ∧ text = digits ++ other := by
  rcases List.append_eq_append_iff.1 h with ⟨digits, hnumeral, htext⟩ | ⟨digits, hnumeral, -⟩
  · refine ⟨digits, ?_, hnumeral, htext⟩
    rintro rfl
    rw [List.append_nil] at hnumeral
    have := numeral_inj (by decide) (by decide) hnumeral
    omega
  · -- the smaller number would have the digits of the larger one and more
    have hle := value_le_value_append (by decide : 1 < base) ((numeral base n).map digitValue)
      (digits.map digitValue)
    rw [← List.map_append, ← hnumeral] at hle
    have hm := ofNumeral_numeral (by decide : 1 < base) (by decide) m
    have hn := ofNumeral_numeral (by decide : 1 < base) (by decide) n
    unfold ofNumeral at hm hn
    omega

end ClassName

/-! ## Texts with a brace and a point -/

/-- A text that continues up to a brace and a point is empty or begins with them itself. -/
theorem eq_append_brace_iff {more rest back : List Char} :
    '\x7b' :: '.' :: rest = more ++ '\x7b' :: '.' :: back ↔
      more = [] ∧ rest = back ∨
        ∃ inner, more = '\x7b' :: '.' :: inner ∧ rest = inner ++ '\x7b' :: '.' :: back := by
  constructor
  · intro h
    match more with
    | [] => exact .inl ⟨rfl, (List.cons.inj (List.cons.inj h).2).2⟩
    | [c] =>
        obtain ⟨-, hpoint⟩ := List.cons.inj h
        exact absurd (List.cons.inj hpoint).1 (by decide)
    | c :: d :: inner =>
        obtain ⟨rfl, hpoint⟩ := List.cons.inj h
        obtain ⟨rfl, hrest⟩ := List.cons.inj hpoint
        exact .inr ⟨inner, rfl, hrest⟩
  · rintro (⟨rfl, rfl⟩ | ⟨inner, rfl, rfl⟩) <;> rfl

/-- Texts with a brace and a point in them agree if they agree before these and after, or if one of
them has these later and what is before goes on from the other text. -/
theorem append_brace_eq_iff {front text rest back : List Char} :
    front ++ '\x7b' :: '.' :: rest = text ++ '\x7b' :: '.' :: back ↔
      front = text ∧ rest = back ∨
        (∃ inner, text = front ++ '\x7b' :: '.' :: inner ∧
          rest = inner ++ '\x7b' :: '.' :: back) ∨
        ∃ inner, front = text ++ '\x7b' :: '.' :: inner ∧
          back = inner ++ '\x7b' :: '.' :: rest := by
  rw [List.append_eq_append_iff]
  simp only [eq_append_brace_iff]
  constructor
  · rintro (⟨more, rfl, ⟨rfl, rfl⟩ | ⟨inner, rfl, hrest⟩⟩ |
      ⟨more, rfl, ⟨rfl, rfl⟩ | ⟨inner, rfl, hback⟩⟩)
    · exact .inl ⟨(List.append_nil _).symm, rfl⟩
    · exact .inr (.inl ⟨inner, rfl, hrest⟩)
    · exact .inl ⟨List.append_nil _, rfl⟩
    · exact .inr (.inr ⟨inner, rfl, hback⟩)
  · rintro (⟨rfl, rfl⟩ | ⟨inner, rfl, hrest⟩ | ⟨inner, rfl, hback⟩)
    · exact .inl ⟨[], (List.append_nil _).symm, .inl ⟨rfl, rfl⟩⟩
    · exact .inl ⟨_, rfl, .inr ⟨inner, rfl, hrest⟩⟩
    · exact .inr ⟨_, rfl, .inr ⟨inner, rfl, hback⟩⟩

/-! ## Rules that read the same -/

namespace Atom

/-- The rule of an atom behind the number of its class, up to the brace after the declaration. -/
def body (atom : Atom) : List Char :=
  (String.join atom.selectors).toList ++
    '\x7b' :: ((Rule.declaration atom.property atom.value).toList ++ ['\x7d'])

/-- The rule of an atom from the number of its class on. -/
def tail (atom : Atom) (index : Nat) : List Char :=
  numeral ClassName.base index ++ atom.body

/-- The atoms stand under one media query, or under none, and the first one has in front of its
selector text the digits that its number lacks to be that of the second one. -/
def DigitsInSelector (atom other : Atom) (index later : Nat) : Prop :=
  atom.media? = other.media? ∧
    ∃ digits, numeral ClassName.base later = numeral ClassName.base index ++ digits ∧
      atom.body = digits ++ other.body

/-- The media query of the second atom goes on from that of the first one with the beginning of the
rule that stands in it, and the rest of this rule is what the second one's rule has behind its media
query. -/
def RuleInMedia (stem : String) (atom other : Atom) (index later : Nat) : Prop :=
  ∃ query otherQuery inner, atom.media? = some query ∧ other.media? = some otherQuery ∧
    otherQuery.toList = query.toList ++ '\x7b' :: '.' :: inner ∧
    stem.toList ++ atom.tail index = inner ++ '\x7b' :: '.' :: (stem.toList ++ other.tail later)

/-- The rules of the two atoms at these places run into each other. -/
def Merged (stem : String) (atom other : Atom) (index later : Nat) : Prop :=
  atom.DigitsInSelector other index later ∨ atom.RuleInMedia stem other index later ∨
    other.RuleInMedia stem atom later index

/-- There may be places at which the rules of the two atoms run into each other. The atoms stand
under one media query, or under none, and differ in digits in front of the selector text of the
first one, or the media query of the second one goes on from that of the first one as a rule does
that stands in it. -/
def MayMerge (atom other : Atom) : Prop :=
  (atom.media? = other.media? ∧
      ∃ digits ≠ [], (∀ c ∈ digits, ClassName.isDigit c) ∧ atom.body = digits ++ other.body) ∨
    ∃ query ∈ atom.media?, ∃ otherQuery ∈ other.media?,
      query.toList ++ ['\x7b', '.'] <+: otherQuery.toList

/-- Digits in front of a text are found by their number. -/
theorem exists_digits_append_iff {text rest : List Char} :
    (∃ digits ≠ [], (∀ c ∈ digits, ClassName.isDigit c) ∧ text = digits ++ rest) ↔
      rest <:+ text ∧ rest.length < text.length ∧
        (text.take (text.length - rest.length)).all ClassName.isDigit := by
  constructor
  · rintro ⟨digits, hne, hdigits, rfl⟩
    have hpos := List.length_pos_of_ne_nil hne
    have hlength : (digits ++ rest).length - rest.length = digits.length := by simp
    refine ⟨List.suffix_append _ _, by rw [List.length_append]; omega, ?_⟩
    rw [hlength, List.take_left, List.all_eq_true]
    exact hdigits
  · rintro ⟨⟨digits, rfl⟩, hlt, hdigits⟩
    have hlength : (digits ++ rest).length - rest.length = digits.length := by simp
    rw [hlength, List.take_left, List.all_eq_true] at hdigits
    refine ⟨digits, ?_, hdigits, rfl⟩
    rintro rfl
    exact absurd hlt (Nat.lt_irrefl _)

instance : DecidableRel MayMerge := fun atom other =>
  decidable_of_iff
    ((atom.media? = other.media? ∧ other.body <:+ atom.body ∧
        other.body.length < atom.body.length ∧
        (atom.body.take (atom.body.length - other.body.length)).all ClassName.isDigit) ∨
      ∃ query ∈ atom.media?.toList, ∃ otherQuery ∈ other.media?.toList,
        query.toList ++ ['\x7b', '.'] <+: otherQuery.toList)
    (by simp only [MayMerge, exists_digits_append_iff, Option.mem_toList, Option.mem_def])

variable {atom other : Atom} {stem : String} {index later : Nat}

/-- Outside of all media queries, the rule of an atom begins with the point of its class. -/
theorem toList_rule_of_none (hmedia : atom.media? = none) :
    ((Request.atom atom).rule stem index).toList = '.' :: (stem.toList ++ atom.tail index) := by
  obtain ⟨media?, selectors, property, value⟩ := atom
  cases hmedia
  simp [Request.rule, Rule.wrap, ClassName.toList_make, tail, body]

/-- Inside a media query, the rule of an atom stands in the braces of the query. -/
theorem toList_rule_of_some {query : String} (hmedia : atom.media? = some query) :
    ((Request.atom atom).rule stem index).toList =
      query.toList ++ '\x7b' :: '.' :: (stem.toList ++ (atom.tail index ++ ['\x7d'])) := by
  obtain ⟨media?, selectors, property, value⟩ := atom
  cases hmedia
  simp [Request.rule, Rule.wrap, ClassName.toList_make, tail, body]

/-- Rules with different numbers agree from there on if the selector text of the first one begins
with the digits that its number lacks. -/
theorem tail_eq_iff (hlt : index < later) :
    atom.tail index = other.tail later ↔
      ∃ digits, numeral ClassName.base later = numeral ClassName.base index ++ digits ∧
        atom.body = digits ++ other.body := by
  constructor
  · intro h
    obtain ⟨digits, -, hnumeral, hbody⟩ := ClassName.exists_digits_of_append_eq hlt h
    exact ⟨digits, hnumeral, hbody⟩
  · rintro ⟨digits, hnumeral, hbody⟩
    rw [tail, tail, hnumeral, hbody, List.append_assoc]

/-- A rule outside of all media queries is not a rule inside one. -/
theorem rule_ne_rule_of_some {query : String} (hmedia : atom.media? = none)
    (hother : other.media? = some query) (hquery : "@media".toList <+: query.toList) :
    (Request.atom atom).rule stem index ≠ (Request.atom other).rule stem later := by
  intro h
  have hlist := congrArg String.toList h
  obtain ⟨rest, hrest⟩ := hquery
  rw [toList_rule_of_none hmedia, toList_rule_of_some hother, ← hrest] at hlist
  simp at hlist

/-- Two atoms with different numbers make the same rule exactly if these run into each other. -/
theorem rule_eq_iff (hlt : index < later) (hatom : (Request.atom atom).Proper)
    (hother : (Request.atom other).Proper) :
    (Request.atom atom).rule stem index = (Request.atom other).rule stem later ↔
      atom.Merged stem other index later := by
  cases hmedia : atom.media? with
  | none =>
      cases hotherMedia : other.media? with
      | none =>
          rw [← String.toList_inj, toList_rule_of_none hmedia, toList_rule_of_none hotherMedia,
            List.cons_inj_right, List.append_cancel_left_eq, tail_eq_iff hlt]
          simp [Merged, DigitsInSelector, RuleInMedia, hmedia, hotherMedia]
      | some query =>
          refine iff_of_false (rule_ne_rule_of_some hmedia hotherMedia (hother _ hotherMedia)) ?_
          simp [Merged, DigitsInSelector, RuleInMedia, hmedia, hotherMedia]
  | some query =>
      cases hotherMedia : other.media? with
      | none =>
          refine iff_of_false ?_ ?_
          · exact (rule_ne_rule_of_some hotherMedia hmedia (hatom _ hmedia)).symm
          · simp [Merged, DigitsInSelector, RuleInMedia, hmedia, hotherMedia]
      | some otherQuery =>
          -- the brace after a whole rule is the same in both
          have hcancel (inner front back : List Char) :
              stem.toList ++ (front ++ ['\x7d']) =
                  inner ++ '\x7b' :: '.' :: (stem.toList ++ (back ++ ['\x7d'])) ↔
                stem.toList ++ front = inner ++ '\x7b' :: '.' :: (stem.toList ++ back) := by
            have hback : inner ++ '\x7b' :: '.' :: (stem.toList ++ (back ++ ['\x7d'])) =
                (inner ++ '\x7b' :: '.' :: (stem.toList ++ back)) ++ ['\x7d'] := by simp
            rw [hback, ← List.append_assoc, List.append_cancel_right_eq]
          rw [← String.toList_inj, toList_rule_of_some hmedia, toList_rule_of_some hotherMedia,
            append_brace_eq_iff, List.append_cancel_left_eq, List.append_cancel_right_eq,
            tail_eq_iff hlt]
          simp [Merged, DigitsInSelector, RuleInMedia, hmedia, hotherMedia, hcancel,
            String.toList_inj]

/-- Atoms whose rules run into each other at some places may do so. -/
theorem Merged.mayMerge (hlt : index < later) (h : atom.Merged stem other index later) :
    atom.MayMerge other ∨ other.MayMerge atom := by
  have hquery {first second : Atom} {i j : Nat} (h : first.RuleInMedia stem second i j) :
      first.MayMerge second := by
    obtain ⟨query, otherQuery, inner, hmedia, hotherMedia, hgoesOn, -⟩ := h
    exact .inr ⟨query, hmedia, otherQuery, hotherMedia, inner, by rw [hgoesOn]; simp⟩
  rcases h with ⟨hmedia, digits, hnumeral, hbody⟩ | hinner | hinner
  · refine .inl (.inl ⟨hmedia, digits, ?_, ?_, hbody⟩)
    · rintro rfl
      rw [List.append_nil] at hnumeral
      have hsame := numeral_inj (by decide) (by decide) hnumeral
      omega
    · intro c hc
      apply ClassName.isDigit_of_mem_numeral (n := later)
      rw [hnumeral]
      exact List.mem_append_right _ hc
  · exact .inl (hquery hinner)
  · exact .inr (hquery hinner)

end Atom

namespace Request

/-- The rule of an atom is not that of an animation. -/
theorem rule_atom_ne_rule_keyframes {stem : String} {index later : Nat} {wanted : Atom}
    {text : String} (hatom : (Request.atom wanted).Proper)
    (htext : (Request.keyframes text).Proper) :
    (Request.atom wanted).rule stem index ≠ (Request.keyframes text).rule stem later := by
  intro h
  have hlist := congrArg String.toList h
  obtain ⟨rest, hrest⟩ := htext
  rw [show ((Request.keyframes text).rule stem later).toList = _ from hrest.symm] at hlist
  cases hmedia : wanted.media? with
  | none =>
      rw [Atom.toList_rule_of_none hmedia] at hlist
      simp at hlist
  | some query =>
      obtain ⟨more, hmore⟩ := hatom query hmedia
      rw [Atom.toList_rule_of_some hmedia, ← hmore] at hlist
      simp at hlist

/-- Different requests at different places make the same rule exactly if they are atoms whose rules
run into each other. -/
theorem rule_eq_iff {stem : String} {index later : Nat} (hlt : index < later)
    {first second : Request} (hne : first ≠ second) (hfirst : first.Proper)
    (hsecond : second.Proper) :
    first.rule stem index = second.rule stem later ↔
      ∃ atom other, first = .atom atom ∧ second = .atom other ∧
        atom.Merged stem other index later := by
  cases first with
  | keyframes text =>
      refine iff_of_false ?_ (by simp)
      intro h
      cases second with
      | keyframes other => exact hne (congrArg Request.keyframes h)
      | atom other => exact rule_atom_ne_rule_keyframes hsecond hfirst h.symm
  | atom wanted =>
      cases second with
      | keyframes text => exact iff_of_false (rule_atom_ne_rule_keyframes hfirst hsecond) (by simp)
      | atom other =>
          rw [Atom.rule_eq_iff hlt hfirst hsecond]
          simp

end Request

namespace Session

variable {σ : Type} [LiveSheet σ]

/-- Calls ask for proper requests only. -/
theorem proper_of_mem_requests {calls : List Call} {request : Request}
    (h : request ∈ calls.flatMap Call.requests) : request.Proper := by
  obtain ⟨_, -, hcall⟩ := List.mem_flatMap.1 h
  obtain ⟨_, -, hblock⟩ := List.mem_flatMap.1 hcall
  exact Block.proper_of_mem_requests hblock

/-- Two rules of a run read the same exactly if the requests at their places are atoms whose rules
run into each other. -/
theorem rules_eq_iff {settings : Settings} {fresh : Session σ} (h : Fresh settings fresh)
    {calls : List Call} {index later : Nat} (hlt : index < later) :
    (∃ text, (fresh.after calls).rules[index]? = some text ∧
        (fresh.after calls).rules[later]? = some text) ↔
      ∃ atom other, (calls.flatMap Call.requests).eraseDups[index]? = some (.atom atom) ∧
        (calls.flatMap Call.requests).eraseDups[later]? = some (.atom other) ∧
        atom.Merged settings.stem other index later := by
  have hproper {request : Request} {place : Nat}
      (hrequest : (calls.flatMap Call.requests).eraseDups[place]? = some request) :
      request.Proper :=
    proper_of_mem_requests (List.mem_eraseDups.1 (List.mem_of_getElem? hrequest))
  rw [(h.remembers_after calls).rules, h.settings_after, List.getElem?_mapIdx, List.getElem?_mapIdx]
  constructor
  · rintro ⟨text, hindex, hlater⟩
    obtain ⟨first, hfirst, rfl⟩ := Option.map_eq_some_iff.1 hindex
    obtain ⟨second, hsecond, hsame⟩ := Option.map_eq_some_iff.1 hlater
    have hne : first ≠ second := by
      rintro rfl
      -- no request is listed twice
      have hnodup := List.nodup_iff_getElem?_ne_getElem?.1 (nodup_eraseDups _) index later hlt
        (List.getElem?_eq_some_iff.1 hsecond).1
      exact hnodup (hfirst.trans hsecond.symm)
    obtain ⟨atom, other, rfl, rfl, hmerged⟩ :=
      (Request.rule_eq_iff hlt hne (hproper hfirst) (hproper hsecond)).1 hsame.symm
    exact ⟨atom, other, hfirst, hsecond, hmerged⟩
  · rintro ⟨atom, other, hatom, hother, hmerged⟩
    have hsame := (Atom.rule_eq_iff hlt (hproper hatom) (hproper hother)).2 hmerged
    rw [hatom, hother]
    exact ⟨_, rfl, congrArg some hsame.symm⟩

/-- In every session that a run leads to, two rules at different places read the same exactly if
both are rules of atoms and run into each other: the atoms stand under one media query and the
selector text of the earlier one begins with the digits that its number lacks to be the later one's,
all else being the same, or the media query of one goes on from that of the other into its rule. So
if no two leaves of the blocks differ like this, no rule comes twice. -/
theorem nodup_rules_after {settings : Settings} {fresh : Session σ} (h : Fresh settings fresh)
    (calls : List Call) :
    let asked := (calls.flatMap Call.requests).eraseDups
    let leaves := calls.flatMap fun call => call.block?.toList.flatMap Block.atoms
    let rules := (fresh.after calls).rules
    (∀ index later, index < later →
      ((∃ text, rules[index]? = some text ∧ rules[later]? = some text) ↔
        ∃ atom other, asked[index]? = some (Request.atom atom) ∧
          asked[later]? = some (Request.atom other) ∧
          atom.Merged settings.stem other index later)) ∧
    ((∀ atom ∈ leaves, ∀ other ∈ leaves, ¬ atom.MayMerge other) → rules.Nodup) := by
  intro asked leaves rules
  refine ⟨fun index later hlt => rules_eq_iff h hlt, ?_⟩
  intro hapart
  have hleaf {atom : Atom} {place : Nat} (hatom : asked[place]? = some (.atom atom)) :
      atom ∈ leaves := by
    have hmem := List.mem_eraseDups.1 (List.mem_of_getElem? hatom)
    obtain ⟨call, hcall, hrequest⟩ := List.mem_flatMap.1 hmem
    obtain ⟨block, hblock, hrequest⟩ := List.mem_flatMap.1 hrequest
    exact List.mem_flatMap.2 ⟨call, hcall,
      List.mem_flatMap.2 ⟨block, hblock, Block.mem_atoms.2 hrequest⟩⟩
  rw [List.nodup_iff_getElem?_ne_getElem?]
  intro index later hlt hlength hsame
  have hlater := List.getElem?_eq_getElem hlength
  obtain ⟨atom, other, hatom, hother, hmerged⟩ :=
    (rules_eq_iff h hlt).1 ⟨_, hsame.trans hlater, hlater⟩
  rcases hmerged.mayMerge hlt with hmay | hmay
  · exact hapart atom (hleaf hatom) other (hleaf hother) hmay
  · exact hapart other (hleaf hother) atom (hleaf hatom) hmay

/-- Digits in front of a selector do no harm where no other leaf is the same without them, nor do
braces in media queries of which none goes on from another one. -/
theorem nodup_rules_after_bounded :
    let fresh : Session BoundedSheet := (attach {} none (BoundedHost.mk 1)).1
    let red := Block.ofList [("color", "red")]
    let block := (((Block.empty.insert "&0:hover" red).insert "&:hover"
      (Block.ofList [("color", "gold")])).insert "@media a\x7b.b" red).insert "@media a\x7b.c" red
    let leaves := [Call.compile block].flatMap fun call => call.block?.toList.flatMap Block.atoms
    Fresh {} fresh ∧
      (∀ atom ∈ leaves, ∀ other ∈ leaves, ¬ atom.MayMerge other) ∧
      (fresh.after [.compile block]).rules.Nodup := by
  intro fresh red block leaves
  have hfresh : Fresh {} fresh := .attach none (BoundedHost.mk 1)
  have hapart : ∀ atom ∈ leaves, ∀ other ∈ leaves, ¬ atom.MayMerge other := by decide +kernel
  exact ⟨hfresh, hapart, (nodup_rules_after hfresh [.compile block]).2 hapart⟩

/-- A brace in a media query, or a digit at the beginning of a selector, can make two rules read the
same. -/
theorem not_nodup_rules :
    let fresh : Session BoundedSheet := start {}
    let red := Block.ofList [("color", "red")]
    let braces := (Block.empty.insert "@media a" (Block.ofList [("b\x7b.t1 c", red)])).insert
      "@media a\x7b.t0 b" (Block.ofList [("c", red)])
    let digits := (((Block.empty.insert "color" "gold").insert "&0:hover" red).insert
      "order" ((List.range 34).map fun n => (n : Int))).insert "&:hover" red
    Fresh {} fresh ∧
      (fresh.after [.compile braces]).rules =
        ["@media a\x7b.t0 b\x7b.t1 c\x7bcolor:red;\x7d\x7d",
          "@media a\x7b.t0 b\x7b.t1 c\x7bcolor:red;\x7d\x7d"] ∧
      (fresh.after [.compile digits]).rules[1]? = some ".t10:hover\x7bcolor:red;\x7d" ∧
      (fresh.after [.compile digits]).rules[36]? = some ".t10:hover\x7bcolor:red;\x7d" ∧
      ¬ (fresh.after [.compile braces]).rules.Nodup ∧
      ¬ (fresh.after [.compile digits]).rules.Nodup := by
  intro fresh red braces digits
  have hbraces : (fresh.after [.compile braces]).rules =
      ["@media a\x7b.t0 b\x7b.t1 c\x7bcolor:red;\x7d\x7d",
        "@media a\x7b.t0 b\x7b.t1 c\x7bcolor:red;\x7d\x7d"] := by
    decide +kernel
  have hdigits : (fresh.after [.compile digits]).rules[1]? =
      some ".t10:hover\x7bcolor:red;\x7d" ∧ (fresh.after [.compile digits]).rules[36]? =
      some ".t10:hover\x7bcolor:red;\x7d" := by
    decide +kernel
  obtain ⟨hindex, hlater⟩ := hdigits
  refine ⟨.start, hbraces, hindex, hlater, ?_, ?_⟩
  · rw [hbraces]
    simp
  · rw [List.nodup_iff_getElem?_ne_getElem?]
    intro hnodup
    exact hnodup 1 36 (by decide) (List.getElem?_eq_some_iff.1 hlater).1
      (hindex.trans hlater.symm)

end Session

end AtomicRules

import AtomicRules.Proofs.Calls
import AtomicRules.Proofs.Distinct
import AtomicRules.Sheet.Bounded

/-!
# The numbering of rules

A session is described by the list of requests it has answered, whatever the calls were that made
them (`Remembers`). The rules are those of the distinct requests in the order in which each came
first, and the class of an atom has the index of its rule as its number. `mapM_compile_of_fresh`
says so of the blocks compiled in a run, and `exists_numbered_after` of the memory of any session
that a run leads to.
-/

namespace AtomicRules

namespace Session

variable {σ : Type}

/-- The session has answered these requests and no others. -/
structure Remembers (session : Session σ) (past : List Request) : Prop where
  known : ∀ request, session.known? request =
    if request ∈ past then
      some (request.class? session.settings.stem (past.eraseDups.idxOf request))
    else none
  rules : session.rules = past.eraseDups.mapIdx (Request.rule session.settings.stem)
  traces : Journal.traces session.ledger.journal =
    past.eraseDups.mapIdx (Request.report session.settings.stem)
  size : session.memorySize = past.eraseDups.length

/-- A fresh session has answered nothing. -/
theorem Fresh.remembers {settings : Settings} {session : Session σ} (h : Fresh settings session) :
    session.Remembers [] := by
  have htraces := h.traces_eq
  obtain ⟨ledger, hrules, rfl⟩ := h.exists_ledger
  refine ⟨?_, hrules, htraces, rfl⟩
  intro request
  cases request <;> rfl

/-- There are as many rules as requests, repetitions left out. -/
theorem Remembers.length_rules {session : Session σ} {past : List Request}
    (h : session.Remembers past) : session.rules.length = past.eraseDups.length := by
  rw [h.rules, List.length_mapIdx]

/-- What was asked for before may be asked for again. -/
theorem Remembers.concat_of_mem {session : Session σ} {past : List Request}
    (h : session.Remembers past) {request : Request} (hmem : request ∈ past) :
    session.Remembers (past ++ [request]) := by
  have hsame : (past ++ [request]).eraseDups = past.eraseDups := by
    rw [eraseDups_concat, if_pos hmem]
  refine ⟨?_, ?_, ?_, ?_⟩
  · intro other
    have hiff : other ∈ past ++ [request] ↔ other ∈ past := by
      rw [List.mem_append, List.mem_singleton]
      exact or_iff_left_of_imp fun heq => heq ▸ hmem
    rw [h.known, hsame, if_congr hiff rfl rfl]
  · rw [h.rules, hsame]
  · rw [h.traces, hsame]
  · rw [h.size, hsame]

variable [LiveSheet σ]

/-- What is learned is remembered as the latest request. -/
theorem Remembers.learn {session : Session σ} {past : List Request} (h : session.Remembers past)
    {request : Request} (hnew : request ∉ past) :
    (session.learn request).Remembers (past ++ [request]) := by
  have hconcat : (past ++ [request]).eraseDups = past.eraseDups ++ [request] := by
    rw [eraseDups_concat, if_neg hnew]
  -- the rule has the index in the ledger that the request has in the list
  have hsize : past.eraseDups.length = session.ledger.size := h.length_rules.symm
  have hplace : (past ++ [request]).eraseDups.idxOf request = session.ledger.size := by
    rw [hconcat, List.idxOf_append, if_neg (by rwa [List.mem_eraseDups]), hsize,
      List.idxOf_cons_self, Nat.zero_add]
  refine ⟨?_, ?_, ?_, ?_⟩
  · intro other
    rw [known?_learn, settings_learn]
    by_cases hother : other = request
    · rw [if_pos hother, if_pos (by simp [hother]), hother, hplace]
    · rw [if_neg hother, h.known]
      by_cases hold : other ∈ past
      · rw [if_pos hold, if_pos (by simp [hold]), idxOf_eraseDups_append hold]
      · rw [if_neg hold, if_neg (by simp [hold, hother])]
  · rw [Session.rules, rules_learn, settings_learn, hconcat, List.mapIdx_concat, hsize, ← h.rules,
      Session.rules]
  · rw [traces_learn, settings_learn, hconcat, List.mapIdx_concat, hsize, ← h.traces]
  · rw [memorySize_learn, h.size, hconcat, List.length_append, List.length_singleton]

/-- An answer is remembered. -/
theorem Remembers.answer {session : Session σ} {past : List Request} (h : session.Remembers past)
    (request : Request) : (answer request session).2.Remembers (past ++ [request]) := by
  have hrequest := h.known request
  by_cases hmem : request ∈ past
  · rw [if_pos hmem] at hrequest
    rw [answer_of_known hrequest]
    exact h.concat_of_mem hmem
  · rw [if_neg hmem] at hrequest
    rw [answer_of_new hrequest]
    exact h.learn hmem

/-- Answers to a list of requests are remembered. -/
theorem Remembers.answerAll {session : Session σ} {past : List Request}
    (h : session.Remembers past) (requests : List Request) :
    (answerAll requests session).2.Remembers (past ++ requests) := by
  induction requests generalizing session past with
  | nil => simpa using h
  | cons request rest ih =>
      rw [answerAll_cons, List.append_cons]
      exact ih (h.answer request)

omit [LiveSheet σ] in
/-- The class of an atom that was asked for has the number of its first request. -/
theorem Remembers.get?_classes {session : Session σ} {past : List Request}
    (h : session.Remembers past) {atom : Atom} (hatom : Request.atom atom ∈ past) :
    session.classes.get? atom = some
      (ClassName.make session.settings.stem (past.eraseDups.idxOf (.atom atom))) := by
  have hknown := h.known (.atom atom)
  rw [if_pos hatom, known?_atom] at hknown
  obtain ⟨name, hname, hsame⟩ := Option.map_eq_some_iff.1 hknown
  rw [hname, hsame, Request.class?]

/-! ## Blocks compiled one after the other -/

/-- Blocks compiled in turn leave the session that answers to all of their requests leave. -/
theorem mapM_compile_snd (blocks : List Block) (session : Session σ) :
    (blocks.mapM compile session).2 =
      (Session.answerAll (blocks.flatMap (·.requests Scope.root)) session).2 := by
  have hblocks := mapM_eq_answerAll (compile_eq_answerAll (σ := σ)) blocks
  rw [← hblocks]
  rfl

/-- Blocks compiled in turn get the classes that any later session has for their atoms. -/
theorem mapM_compile_fst {blocks : List Block} {session later : Session σ}
    (h : (blocks.mapM compile session).2.Extends later) :
    (blocks.mapM compile session).1 =
      blocks.map fun block => block.atoms.filterMap later.classes.get? := by
  induction blocks generalizing session with
  | nil => rfl
  | cons block rest ih =>
      rw [List.mapM_cons] at h ⊢
      -- the other blocks come in between and forget nothing
      have hblock : (compile block session).2.Extends later := by
        refine Extends.trans ?_ h
        show (compile block session).2.Extends (rest.mapM compile (compile block session).2).2
        rw [mapM_compile_snd]
        exact extends_answerAll _ _
      rw [List.map_cons, ← compile_eq_filterMap hblock, ← ih h]
      rfl

/-- In a run that compiles blocks one after the other, whatever their number, the rules are those
of the distinct requests of all blocks together in order of first occurrence, each written with its
index. Every leaf gets one class, and its number is the index of the first request for the leaf's
atom in the whole run. -/
theorem mapM_compile_of_fresh {settings : Settings} {fresh : Session σ}
    (h : Fresh settings fresh) (blocks : List Block) :
    let asked := (blocks.flatMap (·.requests Scope.root)).eraseDups
    let run := blocks.mapM compile fresh
    run.2.rules = asked.mapIdx (Request.rule settings.stem) ∧
      run.1 = blocks.map fun block => block.atoms.map fun atom =>
        ClassName.make settings.stem (asked.idxOf (.atom atom)) := by
  intro asked run
  have hremembers := h.remembers.answerAll (blocks.flatMap (·.requests Scope.root))
  have hsettings := settings_answerAll (blocks.flatMap (·.requests Scope.root)) fresh
  rw [List.nil_append, ← mapM_compile_snd] at hremembers
  rw [← mapM_compile_snd, h.settings_eq] at hsettings
  refine ⟨?_, (mapM_compile_fst (Extends.refl _)).trans ?_⟩
  · rw [← hsettings]
    exact hremembers.rules
  · apply List.map_congr_left
    intro block hblock
    rw [List.filterMap_eq_map_iff_forall_eq_some, ← hsettings]
    intro atom hatom
    apply hremembers.get?_classes
    exact List.mem_flatMap.2 ⟨block, hblock, Block.mem_atoms.1 hatom⟩

/-- An animation between two leaves takes a number, a leaf that was there before takes none, and a
live sheet that is full changes nothing. -/
theorem mapM_compile_of_fresh_bounded :
    let fresh : Session BoundedSheet := (attach { stem := "x" } none (BoundedHost.mk 1)).1
    let spin := Block.ofList [("to", Block.ofList [("left", (1 : Int))])]
    let first : Block := (Block.empty.insert "color" "gold").insert "@keyframes spin" spin
    let second := Block.ofList [("margin,color", "gold")]
    let run := [first, second].mapM compile fresh
    Fresh { stem := "x" } fresh ∧
      run.2.rules = [".x0\x7bcolor:gold;\x7d", "@keyframes spin\x7bto\x7bleft:1px;\x7d\x7d",
        ".x2\x7bmargin:gold;\x7d"] ∧
      run.1 = [["x0"], ["x2", "x0"]] := by
  intro fresh spin first second run
  have hfresh : Fresh { stem := "x" } fresh := .attach none (BoundedHost.mk 1)
  obtain ⟨hrules, hclasses⟩ := mapM_compile_of_fresh hfresh [first, second]
  exact ⟨hfresh, hrules.trans (by decide +kernel), hclasses.trans (by decide +kernel)⟩

/-! ## The memory of a session -/

omit [LiveSheet σ] in
/-- Everything in the two memos has an index of its own, and the rules are the rules of these
requests, each at its index. -/
structure Numbered (stem : String) (session : Session σ) (index : Request → Nat) : Prop where
  atoms : ∀ atom name, session.classes.get? atom = some name →
    index (.atom atom) < session.rules.length ∧
    name = ClassName.make stem (index (.atom atom)) ∧
    session.rules[index (.atom atom)]? = some (Request.rule stem (index (.atom atom)) (.atom atom))
  keyframes : ∀ rule, session.keyframes.get? rule = some () →
    session.rules[index (.keyframes rule)]? = some rule
  distinct : ∀ request other, (session.known? request).isSome → (session.known? other).isSome →
    index request = index other → request = other
  covering : ∀ i < session.rules.length,
    ∃ request, (session.known? request).isSome ∧ index request = i
  size : session.classes.size + session.keyframes.size = session.rules.length

omit [LiveSheet σ] in
/-- A session knows the requests that it has answered. -/
theorem Remembers.isSome_known? {session : Session σ} {past : List Request}
    (h : session.Remembers past) {request : Request} :
    (session.known? request).isSome ↔ request ∈ past := by
  rw [h.known]
  split
  · next hmem => simp [hmem]
  · next hmem => simp [hmem]

omit [LiveSheet σ] in
/-- The rule of a request that was answered stands at the place of the request. -/
theorem Remembers.getElem?_rules {session : Session σ} {past : List Request}
    (h : session.Remembers past) {request : Request} (hmem : request ∈ past) :
    session.rules[past.eraseDups.idxOf request]? =
      some (request.rule session.settings.stem (past.eraseDups.idxOf request)) := by
  have hlt := List.idxOf_lt_length_of_mem (List.mem_eraseDups.2 hmem)
  rw [h.rules, List.getElem?_mapIdx, List.getElem?_eq_getElem hlt, List.getElem_idxOf,
    Option.map_some]

omit [LiveSheet σ] in
/-- The places of the requests that were answered number the memory. -/
theorem Remembers.numbered {session : Session σ} {past : List Request}
    (h : session.Remembers past) :
    session.Numbered session.settings.stem (past.eraseDups.idxOf ·) := by
  have hlength := h.length_rules
  refine ⟨?_, ?_, ?_, ?_, ?_⟩
  · intro atom name hname
    have hmem : Request.atom atom ∈ past := by
      rw [← h.isSome_known?, known?_atom, hname]
      rfl
    have hclass := h.get?_classes hmem
    rw [hname] at hclass
    refine ⟨?_, Option.some.inj hclass, h.getElem?_rules hmem⟩
    rw [hlength]
    exact List.idxOf_lt_length_of_mem (List.mem_eraseDups.2 hmem)
  · intro rule hrule
    have hmem : Request.keyframes rule ∈ past := by
      rw [← h.isSome_known?, known?_keyframes, hrule]
      rfl
    exact h.getElem?_rules hmem
  · intro request other hrequest _ hindex
    rw [h.isSome_known?, ← List.mem_eraseDups] at hrequest
    exact (List.idxOf_inj hrequest).1 hindex
  · intro i hi
    rw [hlength] at hi
    refine ⟨past.eraseDups[i], ?_, (nodup_eraseDups past).idxOf_getElem i hi⟩
    rw [h.isSome_known?, ← List.mem_eraseDups]
    exact List.getElem_mem hi
  · rw [hlength, ← h.size, memorySize]

/-- A session that a run leads to has answered the requests of the calls. -/
theorem Fresh.remembers_after {settings : Settings} {fresh : Session σ} (h : Fresh settings fresh)
    (calls : List Call) : (fresh.after calls).Remembers (calls.flatMap Call.requests) := by
  have hremembers := h.remembers.answerAll (calls.flatMap Call.requests)
  rwa [List.nil_append, ← after_eq_answerAll] at hremembers

/-- A class given to a leaf in a run is the one in memory at the end. -/
theorem get?_classes_of_mem_classified {calls : List Call} {session : Session σ}
    {pair : Atom × String} (h : pair ∈ session.classified calls) :
    (session.after calls).classes.get? pair.1 = some pair.2 := by
  induction calls generalizing session with
  | nil => contradiction
  | cons first rest ih =>
      rcases List.mem_append.1 h with hfirst | hrest
      · obtain ⟨block, hblock, hpair⟩ := List.mem_flatMap.1 hfirst
        have hcall := call_of_block? (Option.mem_toList.1 hblock) session
        have hextends : (compile block session).2.Extends (session.after (first :: rest)) := by
          rw [← hcall]
          exact extends_after rest _
        obtain ⟨name, hnames, hget⟩ := compile_eq_map hextends
        rw [hnames, ← List.map_prod_left_eq_zip, List.mem_map] at hpair
        obtain ⟨atom, hatom, rfl⟩ := hpair
        exact hget atom hatom
      · exact ih hrest

/-- Every leaf of the blocks compiled in a run is given a class. -/
theorem map_fst_classified (calls : List Call) (session : Session σ) :
    (session.classified calls).map Prod.fst =
      calls.flatMap fun call => call.block?.toList.flatMap Block.atoms := by
  induction calls generalizing session with
  | nil => rfl
  | cons first rest ih =>
      have hzip (block : Block) :
          (block.atoms.zip (compile block session).1).map Prod.fst = block.atoms :=
        List.map_fst_zip (Nat.le_of_eq (length_compile block session).symm)
      rw [classified, List.map_append, ih, List.map_flatMap, List.flatMap_cons]
      simp only [hzip]

/-- In every session that a run leads to, whatever the calls, all that is in memory has an index of
its own, and the rules are those of the memory, each at its index. All leaves of the run were given
classes, and two of them have the same class exactly when they are the same atom. -/
theorem exists_numbered_after {settings : Settings} {fresh : Session σ}
    (h : Fresh settings fresh) (calls : List Call) :
    (∃ index, (fresh.after calls).Numbered settings.stem index) ∧
      (fresh.classified calls).map Prod.fst =
        (calls.flatMap fun call => call.block?.toList.flatMap Block.atoms) ∧
      ∀ leaf ∈ fresh.classified calls, ∀ other ∈ fresh.classified calls,
        leaf.2 = other.2 ↔ leaf.1 = other.1 := by
  have hnumbered := (h.remembers_after calls).numbered
  have hsettings := settings_answerAll (calls.flatMap Call.requests) fresh
  rw [← after_eq_answerAll, h.settings_eq] at hsettings
  rw [hsettings] at hnumbered
  refine ⟨⟨_, hnumbered⟩, map_fst_classified calls fresh, ?_⟩
  rintro ⟨atom, name⟩ hleaf ⟨otherAtom, otherName⟩ hother
  have hget := get?_classes_of_mem_classified hleaf
  have hotherGet := get?_classes_of_mem_classified hother
  constructor
  · -- equal names have equal numbers, and no two atoms have one number
    rintro rfl
    obtain ⟨-, hname, -⟩ := hnumbered.atoms atom name hget
    obtain ⟨-, hotherName, -⟩ := hnumbered.atoms otherAtom name hotherGet
    have hindex := ClassName.make_inj (hname.symm.trans hotherName)
    have hrequest := hnumbered.distinct (.atom atom) (.atom otherAtom)
      (by rw [known?_atom, hget]; rfl) (by rw [known?_atom, hotherGet]; rfl) hindex
    exact Request.atom.inj hrequest
  · rintro rfl
    exact Option.some.inj (hget.symm.trans hotherGet)

/-- The same declaration as a property of its own and under a media query makes two classes, and
the second call for it makes none. -/
theorem exists_numbered_after_bounded :
    let fresh : Session BoundedSheet := (attach {} none (BoundedHost.mk 1)).1
    let print := Block.ofList [("color", "red")]
    let block : Block := (Block.empty.insert "color" "red").insert "@media print" print
    let calls := [.classText block, .rules, .compile print]
    Fresh {} fresh ∧
      (∃ index, (fresh.after calls).Numbered "t" index) ∧
      fresh.classified calls =
        [(⟨none, [], "color", "red"⟩, "t0"), (⟨some "@media print", [], "color", "red"⟩, "t1"),
          (⟨none, [], "color", "red"⟩, "t0")] ∧
      ∀ leaf ∈ fresh.classified calls, ∀ other ∈ fresh.classified calls,
        leaf.2 = other.2 ↔ leaf.1 = other.1 := by
  intro fresh print block calls
  have hfresh : Fresh {} fresh := .attach none (BoundedHost.mk 1)
  obtain ⟨hnumbered, -, hclasses⟩ := exists_numbered_after hfresh calls
  exact ⟨hfresh, hnumbered, by decide +kernel, hclasses⟩

end Session

end AtomicRules

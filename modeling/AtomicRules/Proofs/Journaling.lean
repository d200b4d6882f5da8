import AtomicRules.Proofs.Offers

/-!
# What a call writes into the journal

The journal of a session that keeps one grows by one line for each rule that a call makes, in the
order of the rules, and the line says what the sheet did with the rule (`text_journal_call`).
Without a live sheet, or without the setting, nothing is ever written, and what was asked for before
writes nothing either.
-/

namespace AtomicRules

/-! ## Lines -/

namespace Offer

/-- The line of an offer in the file of the journal. -/
def line (offer : Offer) : String :=
  match offer.answer with
  | .ok () => "[DEBUG] atomcss::sink: rule inserted: " ++ offer.rule ++ "\n"
  | .error refusal =>
      "[WARN] atomcss::sink: rule not supported: " ++ offer.rule ++ ": " ++ refusal.message ++ "\n"

/-- The record of an offer is written as its line. -/
theorem line_record (offer : Offer) : offer.record.line = offer.line := by
  obtain ⟨index, rule, answer⟩ := offer
  -- the parts in front of the rule are one text in the line
  cases answer with
  | ok =>
      have hhead : "[" ++ "DEBUG" ++ "] " ++ "atomcss::sink" ++ ": " ++ "rule inserted: " =
          "[DEBUG] atomcss::sink: rule inserted: " := by decide
      show "[" ++ "DEBUG" ++ "] " ++ "atomcss::sink" ++ ": " ++
          ("rule inserted: " ++ rule) ++ "\n" =
        "[DEBUG] atomcss::sink: rule inserted: " ++ rule ++ "\n"
      rw [← hhead, ← String.append_assoc]
  | error refusal =>
      have hhead : "[" ++ "WARN" ++ "] " ++ "atomcss::sink" ++ ": " ++ "rule not supported: " =
          "[WARN] atomcss::sink: rule not supported: " := by decide
      show "[" ++ "WARN" ++ "] " ++ "atomcss::sink" ++ ": " ++
          ("rule not supported: " ++ rule ++ ": " ++ refusal.message) ++ "\n" =
        "[WARN] atomcss::sink: rule not supported: " ++ rule ++ ": " ++ refusal.message ++ "\n"
      rw [← hhead]
      simp only [String.append_assoc]

/-- The records of offers are written line by line. -/
theorem text_map_record (offers : List Offer) :
    Journal.text (offers.map record) = String.join (offers.map line) := by
  rw [Journal.text, written_map_record, List.map_map]
  congr 1
  apply List.map_congr_left
  intro offer _
  exact offer.line_record

end Offer

namespace Session

variable {σ : Type}

/-- A fresh session writes down the answers of its sheet if its settings say so. -/
theorem Fresh.debug_eq {settings : Settings} {fresh : Session σ} (h : Fresh settings fresh) :
    fresh.ledger.debug = settings.debug := by
  cases h with
  | start => rfl
  | attach detected? host =>
      unfold Session.attach
      split <;> rfl

variable [LiveSheet σ]

/-! ## What a run leaves as it is -/

/-- Whether a session writes down the answers of its sheet does not change. -/
theorem debug_after (calls : List Call) (session : Session σ) :
    (session.after calls).ledger.debug = session.ledger.debug := by
  apply after_preserves_ledger (P := fun ledger => ledger.debug = session.ledger.debug)
  · intro news ledger _ hledger
    rw [Ledger.debug_report, hledger]
  · intro rule ledger hledger
    rw [Ledger.debug_record, hledger]
  · rfl

/-- A session keeps its sheet, or goes on without one. -/
theorem hasSheet_after (calls : List Call) (session : Session σ) :
    (session.after calls).hasSheet = session.hasSheet := by
  apply after_preserves_ledger (P := fun ledger => ledger.sheet?.isSome = session.hasSheet)
  · intro news ledger _ hledger
    rw [Ledger.sheet?_report, hledger]
  · intro rule ledger hledger
    rw [Ledger.isSome_sheet?_record, hledger]
  · rfl

/-- Without a sheet nothing is written into the journal. -/
theorem written_after_of_not_hasSheet {session : Session σ} (h : session.hasSheet = false)
    (calls : List Call) :
    Journal.written (session.after calls).ledger.journal =
      Journal.written session.ledger.journal := by
  have hnone : session.ledger.sheet? = none := by simpa [hasSheet] using h
  have hafter : (session.after calls).ledger.sheet? = none ∧
      Journal.written (session.after calls).ledger.journal =
        Journal.written session.ledger.journal := by
    apply after_preserves_ledger (P := fun ledger => ledger.sheet? = none ∧
      Journal.written ledger.journal = Journal.written session.ledger.journal)
    · rintro news ledger hnews ⟨hsheet, hwritten⟩
      exact ⟨hsheet, (Ledger.written_report hnews).trans hwritten⟩
    · rintro rule ledger ⟨hsheet, hwritten⟩
      rw [Ledger.record, hsheet]
      exact ⟨rfl, hwritten⟩
    · exact ⟨hnone, rfl⟩
  exact hafter.2

/-- With a sheet the records of the offers are written, if that is asked for. -/
theorem written_after_of_sheet {session : Session σ} {sheet : σ}
    (h : session.ledger.sheet? = some sheet) (calls : List Call) :
    Journal.written (session.after calls).ledger.journal =
      Journal.written session.ledger.journal ++
        if session.ledger.debug then (session.transcribed.after calls).offers.map Offer.record
        else [] := by
  rw [← plain_after_transcribed]
  exact (offered_after h calls).written

/-- In a run with a sheet the new rules are those that were offered. -/
theorem rules_after_of_sheet {session : Session σ} {sheet : σ}
    (h : session.ledger.sheet? = some sheet) (calls : List Call) :
    (session.after calls).rules =
      session.rules ++ (session.transcribed.after calls).offers.map Offer.rule := by
  rw [← plain_after_transcribed]
  exact (offered_after h calls).rules

/-! ## What a call writes -/

/-- A run from any session adds the lines of its offers to the file of the journal. -/
theorem text_journal_after (session : Session σ) (calls : List Call) :
    Journal.text (session.after calls).ledger.journal = Journal.text session.ledger.journal ++
      if session.ledger.debug && session.hasSheet then
        String.join ((session.transcribed.after calls).offers.map Offer.line)
      else "" := by
  cases hsheet : session.ledger.sheet? with
  | none =>
      have hnot : session.hasSheet = false := by rw [hasSheet, hsheet]; rfl
      rw [Journal.text, written_after_of_not_hasSheet hnot, hnot, Bool.and_false,
        if_neg Bool.false_ne_true, String.append_empty]
      rfl
  | some sheet =>
      have hsome : session.hasSheet = true := by rw [hasSheet, hsheet]; rfl
      rw [Journal.text, written_after_of_sheet hsheet, List.map_append, String.join_append, hsome,
        Bool.and_true]
      cases session.ledger.debug with
      | false => rfl
      | true =>
          rw [if_pos rfl, if_pos rfl, ← Offer.text_map_record, Journal.text, Journal.text,
            Offer.written_map_record]

/-- A call that asks for nothing new changes nothing. -/
theorem call_of_known {next : Call} {session : Session σ}
    (h : ∀ request ∈ next.requests, (session.known? request).isSome) :
    (call next session).2 = session := by
  rw [call_eq_answerAll, answerAll_of_known]
  intro request hrequest
  exact Option.isSome_iff_exists.1 (h request hrequest)

/-- Whatever the calls before it, a call writes a line for each rule that it makes, in the order of
the rules: that the rule was inserted if the sheet took it, and else that it was not supported and
why. Without a sheet or without the setting it writes nothing, and neither does a call that asks
for nothing new. -/
theorem text_journal_call {settings : Settings} {fresh : Session σ} (h : Fresh settings fresh)
    (calls : List Call) (next : Call) :
    let session := fresh.after calls
    let later := (call next session).2
    let offers := (call next session.transcribed).2.offers
    Journal.text later.ledger.journal = Journal.text session.ledger.journal ++
        (if settings.debug && fresh.hasSheet then String.join (offers.map Offer.line) else "") ∧
      (∀ sheet, session.ledger.sheet? = some sheet →
        later.rules = session.rules ++ offers.map Offer.rule ∧ LiveSheet.Receives sheet offers) ∧
      ((∀ request ∈ next.requests, (session.known? request).isSome) →
        later.ledger.journal = session.ledger.journal) := by
  intro session later offers
  have hdebug : session.ledger.debug = settings.debug := by
    rw [debug_after, h.debug_eq]
  have hhas : session.hasSheet = fresh.hasSheet := hasSheet_after calls fresh
  refine ⟨?_, ?_, ?_⟩
  · rw [← hdebug, ← hhas]
    exact text_journal_after session [next]
  · intro sheet hsheet
    exact ⟨rules_after_of_sheet hsheet [next], (offered_after hsheet [next]).received⟩
  · intro hknown
    have hsame : later = session := call_of_known hknown
    rw [hsame]

/-- A sheet with room for one rule takes the first leaf. The call after it comes back to this leaf
and makes an animation and another leaf, and both are refused. -/
theorem text_journal_call_bounded :
    let settings : Settings := { stem := "x", debug := true }
    let fresh : Session BoundedSheet := (attach settings none (BoundedHost.mk 1)).1
    let spin := Block.ofList [("to", Block.ofList [("left", (1 : Int))])]
    let calls := [.compile (Block.ofList [("color", "red")]), .css]
    let next := Call.classText (((Block.empty.insert "@keyframes spin" spin).insert
      "color" "red").insert "left" "0")
    Fresh settings fresh ∧
      Journal.text (call next (fresh.after calls)).2.ledger.journal =
        Journal.text (fresh.after calls).ledger.journal ++
          String.join ((call next (fresh.after calls).transcribed).2.offers.map Offer.line) ∧
      (call next (fresh.after calls).transcribed).2.offers.map Offer.line =
        ["[WARN] atomcss::sink: rule not supported: @keyframes spin\x7bto\x7bleft:1px;\x7d\x7d: " ++
            "stylesheet unavailable\n",
          "[WARN] atomcss::sink: rule not supported: .x2\x7bleft:0;\x7d: " ++
            "stylesheet unavailable\n"] ∧
      (call .rules (fresh.after calls)).2.ledger.journal = (fresh.after calls).ledger.journal := by
  intro settings fresh spin calls next
  have hfresh : Fresh settings fresh := .attach none (BoundedHost.mk 1)
  have hkept : (settings.debug && fresh.hasSheet) = true := rfl
  obtain ⟨htext, -, -⟩ := text_journal_call hfresh calls next
  obtain ⟨-, -, hrules⟩ := text_journal_call hfresh calls .rules
  rw [hkept, if_pos rfl] at htext
  refine ⟨hfresh, htext, by decide +kernel, hrules ?_⟩
  intro request hrequest
  exact absurd hrequest List.not_mem_nil

end Session

end AtomicRules

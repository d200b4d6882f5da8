import AtomicRules.Proofs.Stability
import Mathlib.Data.List.Induction

/-!
# What a live sheet is offered

A transcript of a sheet changes nothing in a session (`plain_after_transcribed`), so it shows what
the sheet is offered in a run: every rule once, in the order in which the rules were made, each at
the number of rules that the sheet had just before (`offers_after`). Of a sheet that counts what it
takes, this makes a copy of the rules without those that it refused.

The statements rest on one invariant of the ledger (`Ledger.Offered`), and it holds after a run
because every report and every record keep it (`after_preserves_ledger`).
-/

namespace AtomicRules

/-! ## Offers -/

namespace Offer

/-- The sheet took the rule. -/
def accepted (offer : Offer) : Bool :=
  offer.answer.isOk

/-- The record of an offer in a journal. -/
def record (offer : Offer) : Journal.Record :=
  Ledger.outcome offer.rule offer.answer

/-- The records of offers are written. -/
theorem written_map_record (offers : List Offer) :
    Journal.written (offers.map record) = offers.map record := by
  rw [Journal.written, List.filter_eq_self]
  intro entry hentry
  obtain ⟨offer, -, rfl⟩ := List.mem_map.1 hentry
  exact (Journal.isWritten_iff _).2 (Ledger.severity_outcome_ne _ _)

/-- The rules that a sheet has inserted after some offers: it had none before them, and it inserts
each rule that it takes at the index of the offer. -/
def inserted (offers : List Offer) : List String :=
  offers.foldl (fun rules offer =>
    if offer.accepted then rules.insertIdx offer.index offer.rule else rules) []

/-- One more offer adds its rule at its index if the sheet takes it. -/
theorem inserted_concat (offers : List Offer) (offer : Offer) :
    inserted (offers ++ [offer]) =
      if offer.accepted then (inserted offers).insertIdx offer.index offer.rule
      else inserted offers := by
  rw [inserted, List.foldl_concat]
  rfl

end Offer

namespace LiveSheet

variable {σ : Type} [LiveSheet σ]

/-- The offer of a rule to a sheet, at the end as the sheet counts. -/
def nextOffer (sheet : σ) (rule : String) : Offer where
  index := ruleCount sheet
  rule := rule
  answer := (insertRule rule (ruleCount sheet) sheet).1

/-- The sheet after some offers. -/
def afterOffers (sheet : σ) (offers : List Offer) : σ :=
  offers.foldl (fun sheet offer => (insertRule offer.rule offer.index sheet).2) sheet

/-- The offers are made to the sheet in a row. Each comes at the end, as the sheet counts after the
offers before it, and has the answer that the sheet gives at that moment. -/
def Receives (sheet : σ) (offers : List Offer) : Prop :=
  ∀ front offer back, offers = front ++ offer :: back →
    offer = nextOffer (afterOffers sheet front) offer.rule

/-- The number of rules in the sheet is the number of those that it took, at any time. -/
def CountsAccepted (sheet : σ) : Prop :=
  ∀ offers, Receives sheet offers →
    ruleCount (afterOffers sheet offers) = (offers.filter Offer.accepted).length

/-- The rules that stand in sheets: one that is taken is inserted at its index, and a refusal
changes nothing. -/
def IsContent (content : σ → List String) : Prop :=
  ∀ (sheet : σ) (rule : String) (index : Nat), content (insertRule rule index sheet).2 =
    if (insertRule rule index sheet).1.isOk then (content sheet).insertIdx index rule
    else content sheet

/-- After one more offer the sheet is as its answer to this offer leaves it. -/
theorem afterOffers_concat (sheet : σ) (offers : List Offer) (offer : Offer) :
    afterOffers sheet (offers ++ [offer]) =
      (insertRule offer.rule offer.index (afterOffers sheet offers)).2 := by
  rw [afterOffers, List.foldl_concat]
  rfl

/-- The first of the offers that a sheet gets are offers that it gets. -/
theorem Receives.of_append {sheet : σ} {front back : List Offer}
    (h : Receives sheet (front ++ back)) : Receives sheet front := by
  intro first offer rest hfront
  apply h first offer (rest ++ back)
  rw [hfront, List.append_assoc, List.cons_append]

/-- An offer comes at the number of rules that the sheet has after the offers before it. -/
theorem Receives.index_eq {sheet : σ} {front back : List Offer} {offer : Offer}
    (h : Receives sheet (front ++ offer :: back)) :
    offer.index = ruleCount (afterOffers sheet front) :=
  congrArg Offer.index (h front offer back rfl)

/-- The answer to an offer is the one that the sheet gives after the offers before it. -/
theorem Receives.answer_eq {sheet : σ} {front back : List Offer} {offer : Offer}
    (h : Receives sheet (front ++ offer :: back)) :
    offer.answer = (insertRule offer.rule offer.index (afterOffers sheet front)).1 := by
  rw [h.index_eq]
  exact congrArg Offer.answer (h front offer back rfl)

/-- A sheet may be offered one more rule, at the end as it counts. -/
theorem Receives.concat {sheet : σ} {offers : List Offer} (h : Receives sheet offers)
    (rule : String) :
    Receives sheet (offers ++ [nextOffer (afterOffers sheet offers) rule]) := by
  intro front offer back hsplit
  rcases back.eq_nil_or_concat with rfl | ⟨back, last, rfl⟩
  · -- the offer is the new one
    obtain ⟨rfl, hoffer⟩ := List.append_inj' hsplit rfl
    cases hoffer
    rfl
  · rw [List.concat_eq_append, ← List.cons_append, ← List.append_assoc] at hsplit
    obtain ⟨hoffers, -⟩ := List.append_inj' hsplit rfl
    exact h front offer back hoffers

/-- A sheet without rules counts what it takes if each answer adds one to its number of rules or
refuses the rule and leaves the number as it is. -/
theorem countsAccepted_of_step {sheet : σ} (hempty : ruleCount sheet = 0)
    (hstep : ∀ (sheet : σ) (rule : String),
      ruleCount (insertRule rule (ruleCount sheet) sheet).2 =
        ruleCount sheet + if (nextOffer sheet rule).accepted then 1 else 0) :
    CountsAccepted sheet := by
  intro offers hoffers
  induction offers using List.reverseRecOn with
  | nil => exact hempty
  | append_singleton offers offer ih =>
      have hcount := ih hoffers.of_append
      have hnext := hoffers offers offer [] rfl
      rw [afterOffers_concat, hoffers.index_eq, hstep, hcount, ← hnext, List.filter_append,
        List.length_append]
      cases haccepted : offer.accepted <;> simp [haccepted]

/-- In a sheet that was empty stand the rules that it has inserted since. -/
theorem Receives.content_eq {sheet : σ} {offers : List Offer} (h : Receives sheet offers)
    {content : σ → List String} (hcontent : IsContent content) (hempty : content sheet = []) :
    content (afterOffers sheet offers) = Offer.inserted offers := by
  induction offers using List.reverseRecOn with
  | nil => exact hempty
  | append_singleton offers offer ih =>
      rw [afterOffers_concat, hcontent, ← h.answer_eq, ih h.of_append, Offer.inserted_concat]
      rfl

/-- To a sheet that counts what it takes, an offer comes at the number of rules taken before it. -/
theorem Receives.index_eq_length {sheet : σ} {front back : List Offer} {offer : Offer}
    (h : Receives sheet (front ++ offer :: back)) (hcounts : CountsAccepted sheet) :
    offer.index = (front.filter Offer.accepted).length := by
  rw [h.index_eq, hcounts front h.of_append]

/-- A sheet that counts what it takes has inserted these rules one behind the other. -/
theorem Receives.inserted_eq {sheet : σ} {offers : List Offer} (h : Receives sheet offers)
    (hcounts : CountsAccepted sheet) :
    Offer.inserted offers = (offers.filter Offer.accepted).map Offer.rule := by
  induction offers using List.reverseRecOn with
  | nil => rfl
  | append_singleton offers offer ih =>
      have hinserted := ih h.of_append
      rw [Offer.inserted_concat, List.filter_append, List.map_append]
      cases haccepted : offer.accepted with
      | false => simp [haccepted, hinserted]
      | true =>
          have hend : offer.index = (Offer.inserted offers).length := by
            rw [h.index_eq_length hcounts, hinserted, List.length_map]
          rw [if_pos rfl, hend, List.insertIdx_length_self, hinserted]
          simp [haccepted]

/-- The rule of an offer, inserted at the index of the offer, comes behind the rules taken
before. -/
theorem Receives.insertIdx_inserted {sheet : σ} {front back : List Offer} {offer : Offer}
    (h : Receives sheet (front ++ offer :: back)) (hcounts : CountsAccepted sheet) :
    (Offer.inserted front).insertIdx offer.index offer.rule =
      Offer.inserted front ++ [offer.rule] := by
  have hend : offer.index = (Offer.inserted front).length := by
    rw [h.index_eq_length hcounts, h.of_append.inserted_eq hcounts, List.length_map]
  rw [hend, List.insertIdx_length_self]

end LiveSheet

/-- A sheet with little room that has no rules yet counts what it takes. -/
theorem BoundedSheet.countsAccepted (room : Nat) :
    LiveSheet.CountsAccepted (BoundedSheet.mk room []) := by
  apply LiveSheet.countsAccepted_of_step rfl
  intro sheet rule
  by_cases hroom : sheet.rules.length < sheet.room
  · simp [LiveSheet.insertRule, LiveSheet.ruleCount, LiveSheet.nextOffer, Offer.accepted, hroom,
      Except.isOk, Except.toBool]
  · simp [LiveSheet.insertRule, LiveSheet.ruleCount, LiveSheet.nextOffer, Offer.accepted, hroom,
      Except.isOk, Except.toBool]

/-- The rules of a sheet with little room are its content. -/
theorem BoundedSheet.isContent_rules : LiveSheet.IsContent BoundedSheet.rules := by
  intro sheet rule index
  by_cases hroom : sheet.rules.length < sheet.room
  · simp [LiveSheet.insertRule, hroom, Except.isOk, Except.toBool]
  · simp [LiveSheet.insertRule, hroom, Except.isOk, Except.toBool]

/-! ## What a ledger offers -/

namespace Ledger

variable {σ : Type}

/-- The ledger without the transcript of its sheet. -/
def plain (ledger : Ledger (Transcript σ)) : Ledger σ where
  rules := ledger.rules
  sheet? := ledger.sheet?.map (·.sheet)
  debug := ledger.debug
  journal := ledger.journal

/-- A trace is not written. -/
theorem written_report {ledger : Ledger σ} {news : Journal.Record} (h : news.severity = .trace) :
    Journal.written (ledger.report news).journal = Journal.written ledger.journal := by
  rw [report, Journal.written_append]
  simp [Journal.written, h, Journal.isWritten_iff]

theorem plain_report (ledger : Ledger (Transcript σ)) (news : Journal.Record) :
    (ledger.report news).plain = ledger.plain.report news := rfl

variable [LiveSheet σ]

/-- Recording a rule does the same with a transcript of the sheet as without. -/
theorem plain_record (ledger : Ledger (Transcript σ)) (rule : String) :
    (ledger.record rule).plain = ledger.plain.record rule := by
  obtain ⟨rules, sheet?, debug, journal⟩ := ledger
  cases sheet? <;> rfl

/-- Since the start, when the ledger had the given sheet, it has offered the sheet its new rules and
has written the answers into the journal if that is asked for. The transcript of the sheet holds
these offers and no others. -/
structure Offered (start : Ledger σ) (sheet : σ) (offers : List Offer)
    (ledger : Ledger (Transcript σ)) : Prop where
  rules : ledger.rules = start.rules ++ offers.map Offer.rule
  transcript : ledger.sheet? = some ⟨LiveSheet.afterOffers sheet offers, offers⟩
  debug : ledger.debug = start.debug
  written : Journal.written ledger.journal =
    Journal.written start.journal ++ if start.debug then offers.map Offer.record else []
  received : LiveSheet.Receives sheet offers

/-- A trace makes no offer and is not written. -/
theorem Offered.report {start : Ledger σ} {sheet : σ} {offers : List Offer}
    {ledger : Ledger (Transcript σ)} (h : Offered start sheet offers ledger)
    {news : Journal.Record} (hnews : news.severity = .trace) :
    Offered start sheet offers (ledger.report news) := by
  refine ⟨h.rules, h.transcript, h.debug, ?_, h.received⟩
  rw [written_report hnews, h.written]

/-- A rule that is recorded makes one more offer. -/
theorem Offered.record {start : Ledger σ} {sheet : σ} {offers : List Offer}
    {ledger : Ledger (Transcript σ)} (h : Offered start sheet offers ledger) (rule : String) :
    Offered start sheet
      (offers ++ [LiveSheet.nextOffer (LiveSheet.afterOffers sheet offers) rule])
      (ledger.record rule) := by
  obtain ⟨rules, sheet?, debug, journal⟩ := ledger
  obtain ⟨hrules, hsheet, hdebug, hwritten, hreceived⟩ := h
  cases hrules
  cases hsheet
  cases hdebug
  refine ⟨?_, ?_, rfl, ?_, hreceived.concat rule⟩
  · rw [rules_record, List.map_append, ← List.append_assoc]
    rfl
  · rw [LiveSheet.afterOffers_concat]
    rfl
  · let offer := LiveSheet.nextOffer (LiveSheet.afterOffers sheet offers) rule
    show Journal.written (journal ++ if start.debug then [offer].map Offer.record else []) = _
    rw [Journal.written_append, hwritten, List.append_assoc, List.map_append]
    cases start.debug with
    | false => rfl
    | true => rw [if_pos rfl, if_pos rfl, if_pos rfl, Offer.written_map_record]

end Ledger

namespace Session

variable {σ : Type}

/-- The session without the transcript of its sheet. -/
def plain (session : Session (Transcript σ)) : Session σ where
  settings := session.settings
  classes := session.classes
  keyframes := session.keyframes
  ledger := session.ledger.plain

theorem plain_transcribed (session : Session σ) : session.transcribed.plain = session := by
  obtain ⟨settings, classes, keyframes, rules, sheet?, debug, journal⟩ := session
  cases sheet? <;> rfl

variable [LiveSheet σ]

/-- What every trace and every record preserve holds of the ledger after a run. -/
theorem after_preserves_ledger {P : Ledger σ → Prop}
    (hreport : ∀ news ledger, news.severity = .trace → P ledger → P (ledger.report news))
    (hrecord : ∀ rule ledger, P ledger → P (ledger.record rule))
    (calls : List Call) {session : Session σ} (h : P session.ledger) :
    P (session.after calls).ledger := by
  apply after_preserves (P := fun later => P later.ledger)
  · intro request later hlater
    cases hknown : later.known? request with
    | some name? =>
        rw [answer_of_known hknown]
        exact hlater
    | none =>
        rw [answer_of_new hknown, ledger_learn]
        exact hrecord _ _ (hreport _ _ (request.severity_report _ _) hlater)
  · exact h

/-! ## Transcripts change nothing -/

omit [LiveSheet σ] in
theorem known?_plain (session : Session (Transcript σ)) (request : Request) :
    session.plain.known? request = session.known? request := by
  cases request <;> rfl

theorem plain_learn (session : Session (Transcript σ)) (request : Request) :
    (session.learn request).plain = session.plain.learn request := by
  cases request with
  | atom atom =>
      show ({ session.plain with
        classes := _
        ledger := ((session.ledger.report _).record _).plain } : Session σ) = _
      rw [Ledger.plain_record, Ledger.plain_report]
      rfl
  | keyframes rule =>
      show ({ session.plain with
        keyframes := _
        ledger := ((session.ledger.report _).record _).plain } : Session σ) = _
      rw [Ledger.plain_record, Ledger.plain_report]
      rfl

/-- With a transcript of its sheet, a session answers a request as without. -/
theorem plain_answer (request : Request) (session : Session (Transcript σ)) :
    (answer request session).2.plain = (answer request session.plain).2 := by
  have hsame := known?_plain session request
  cases hknown : session.known? request with
  | some name? => rw [answer_of_known hknown, answer_of_known (hsame.trans hknown)]
  | none =>
      rw [answer_of_new hknown, answer_of_new (hsame.trans hknown)]
      exact plain_learn session request

/-- With a transcript of its sheet, a session answers requests as without. -/
theorem plain_answerAll (requests : List Request) (session : Session (Transcript σ)) :
    (answerAll requests session).2.plain = (answerAll requests session.plain).2 := by
  induction requests generalizing session with
  | nil => rfl
  | cons request rest ih =>
      rw [answerAll_cons, answerAll_cons, ih, plain_answer]

/-- A run that is written down leaves what the run leaves, and the transcript. -/
theorem plain_after_transcribed (session : Session σ) (calls : List Call) :
    (session.transcribed.after calls).plain = session.after calls := by
  rw [after_eq_answerAll, after_eq_answerAll, plain_answerAll, plain_transcribed]

/-! ## What a session offers -/

/-- In a run from any session with a sheet, the offers in the transcript are those of the new
rules. -/
theorem offered_after {session : Session σ} {sheet : σ}
    (hsheet : session.ledger.sheet? = some sheet) (calls : List Call) :
    Ledger.Offered session.ledger sheet (session.transcribed.after calls).offers
      (session.transcribed.after calls).ledger := by
  have hsome : ∃ offers, Ledger.Offered session.ledger sheet offers
      (session.transcribed.after calls).ledger := by
    apply after_preserves_ledger
      (P := fun ledger => ∃ offers, Ledger.Offered session.ledger sheet offers ledger)
    · rintro news ledger hnews ⟨offers, hoffered⟩
      exact ⟨offers, hoffered.report hnews⟩
    · rintro rule ledger ⟨offers, hoffered⟩
      exact ⟨_, hoffered.record rule⟩
    · refine ⟨[], ?_, ?_, rfl, ?_, ?_⟩
      · exact (List.append_nil _).symm
      · rw [transcribed, hsheet]
        rfl
      · simp [transcribed]
      · intro front offer back hsplit
        simp at hsplit
  obtain ⟨offers, hoffered⟩ := hsome
  have hoffers : (session.transcribed.after calls).offers = offers := by
    rw [Session.offers, hoffered.transcript]
    simp
  rw [hoffers]
  exact hoffered

/-- A session with a sheet offers it every rule once, in the order of the rules and whatever the
calls are. Each offer comes at the number of rules that the sheet has just before, and the sheet
changes by its answers alone. A sheet that counts the rules it takes gets each of them behind those
before, so that in the end the rules stand in it in their order without those that it refused. -/
theorem offers_after {settings : Settings} {fresh : Session σ} (h : Fresh settings fresh)
    {sheet : σ} (hsheet : fresh.ledger.sheet? = some sheet) (calls : List Call) :
    let offers := (fresh.transcribed.after calls).offers
    offers.map Offer.rule = (fresh.after calls).rules ∧
      (∀ front offer back, offers = front ++ offer :: back →
        offer.index = LiveSheet.ruleCount (LiveSheet.afterOffers sheet front) ∧
          offer.answer =
            (LiveSheet.insertRule offer.rule offer.index (LiveSheet.afterOffers sheet front)).1) ∧
      (fresh.after calls).ledger.sheet? = some (LiveSheet.afterOffers sheet offers) ∧
      (LiveSheet.CountsAccepted sheet →
        (∀ front offer back, offers = front ++ offer :: back →
          offer.index = (front.filter Offer.accepted).length ∧
            (Offer.inserted front).insertIdx offer.index offer.rule =
              Offer.inserted front ++ [offer.rule]) ∧
        Offer.inserted offers = (offers.filter Offer.accepted).map Offer.rule ∧
        (Offer.inserted offers).Sublist (fresh.after calls).rules ∧
        ∀ content, LiveSheet.IsContent content → content sheet = [] →
          content (LiveSheet.afterOffers sheet offers) = Offer.inserted offers) := by
  intro offers
  have hoffered := offered_after hsheet calls
  have hplain := plain_after_transcribed fresh calls
  have hrules : offers.map Offer.rule = (fresh.after calls).rules := by
    obtain ⟨ledger, hempty, rfl⟩ := h.exists_ledger
    rw [← hplain]
    exact (hoffered.rules.trans (congrArg (· ++ _) hempty)).symm
  have hreceived : LiveSheet.Receives sheet offers := hoffered.received
  refine ⟨hrules, ?_, ?_, ?_⟩
  · intro front offer back hsplit
    rw [hsplit] at hreceived
    exact ⟨hreceived.index_eq, hreceived.answer_eq⟩
  · rw [← hplain]
    show (fresh.transcribed.after calls).ledger.sheet?.map _ = _
    rw [hoffered.transcript]
    rfl
  · intro hcounts
    have hinserted := hreceived.inserted_eq hcounts
    refine ⟨?_, hinserted, ?_, ?_⟩
    · intro front offer back hsplit
      rw [hsplit] at hreceived
      exact ⟨hreceived.index_eq_length hcounts, hreceived.insertIdx_inserted hcounts⟩
    · rw [hinserted, ← hrules]
      exact List.filter_sublist.map Offer.rule
    · intro content hcontent hempty
      exact hreceived.content_eq hcontent hempty

/-- A sheet with room for one rule is offered a leaf, an animation and a leaf, the leaf that comes
back only once. It takes the first one, and the others are offered behind it. -/
theorem offers_after_bounded :
    let fresh : Session BoundedSheet := (attach { stem := "x" } none (BoundedHost.mk 1)).1
    let spin := Block.ofList [("to", Block.ofList [("left", (1 : Int))])]
    let calls := [.compile (Block.ofList [("color", "red")]), .css,
      .classText (((Block.empty.insert "@keyframes spin" spin).insert "color" "red").insert
        "left" "0")]
    let offers := (fresh.transcribed.after calls).offers
    Fresh { stem := "x" } fresh ∧
      fresh.ledger.sheet? = some ⟨1, []⟩ ∧
      LiveSheet.CountsAccepted (BoundedSheet.mk 1 []) ∧
      LiveSheet.IsContent BoundedSheet.rules ∧
      offers.map Offer.rule = (fresh.after calls).rules ∧
      offers.map Offer.index = [0, 1, 1] ∧
      offers.map Offer.rule = [".x0\x7bcolor:red;\x7d",
        "@keyframes spin\x7bto\x7bleft:1px;\x7d\x7d", ".x2\x7bleft:0;\x7d"] ∧
      Offer.inserted offers = [".x0\x7bcolor:red;\x7d"] ∧
      (LiveSheet.afterOffers (BoundedSheet.mk 1 []) offers).rules = Offer.inserted offers := by
  intro fresh spin calls offers
  have hfresh : Fresh { stem := "x" } fresh := .attach none (BoundedHost.mk 1)
  have hcounts := BoundedSheet.countsAccepted 1
  have hcontent := BoundedSheet.isContent_rules
  obtain ⟨hrules, -, -, hcopy⟩ := offers_after hfresh rfl calls
  obtain ⟨-, -, -, hstand⟩ := hcopy hcounts
  exact ⟨hfresh, rfl, hcounts, hcontent, hrules, by decide +kernel, by decide +kernel,
    by decide +kernel, hstand BoundedSheet.rules hcontent rfl⟩

end Session

end AtomicRules
